import DeviceSheet.Proofs.Grammar
import DeviceSheet.Proofs.Lines

/-!
# Trimmed lines

Spaces are trimmed off a whole text and off each of its lines, and carriage returns go with the line
feeds.  What is left in the end is the *core* of the text: its lines, each without the spaces at its
ends, from the first to the last that is not empty.

* Trimming and leaving out empty lines are one operation (`strip`), on characters and on lines.  Its
  result is the only middle part that starts and ends with something else (`strip_eq`).
* Spaces at the ends of a text make empty lines there, or get into the first and the last line
  (`Text.exists_empty_lines`).  So they are not in the core.
* The lines of the trimmed text, trimmed once more, are the core (`Text.map_trim_lines`).
-/

namespace DeviceSheet

/-! ## Leaving out what stands at the ends -/

section Strip

variable {α : Type} {p : α → Bool} {before middle after : List α}

/-- A list without the elements of a class at its ends. -/
def strip (p : α → Bool) (as : List α) : List α :=
  ((as.dropWhile p).reverse.dropWhile p).reverse

/-- The list neither starts nor ends with an element of the class. -/
structure Stripped (p : α → Bool) (as : List α) : Prop where
  head : ∀ a, as.head? = some a → p a = false
  last : ∀ a, as.getLast? = some a → p a = false

theorem head_dropWhile {as : List α} {a : α} (h : (as.dropWhile p).head? = some a) :
    p a = false := by
  have hnot := List.head?_dropWhile_not p as
  rw [h] at hnot
  exact hnot

theorem dropWhile_of_head {as : List α} (h : ∀ a, as.head? = some a → p a = false) :
    as.dropWhile p = as := by
  cases as with
  | nil => rfl
  | cons a as => simp [h a rfl]

/-- What is left out at the ends is of the class. -/
theorem exists_strip (p : α → Bool) (as : List α) :
    ∃ before after, as = before ++ (strip p as ++ after) ∧ (∀ a ∈ before, p a = true) ∧
      Stripped p (strip p as) ∧ ∀ a ∈ after, p a = true := by
  have hrest : as.dropWhile p =
      strip p as ++ ((as.dropWhile p).reverse.takeWhile p).reverse := by
    rw [strip, ← List.reverse_append, List.takeWhile_append_dropWhile, List.reverse_reverse]
  refine ⟨as.takeWhile p, ((as.dropWhile p).reverse.takeWhile p).reverse, ?_, ?_, ⟨?_, ?_⟩, ?_⟩
  · rw [← hrest, List.takeWhile_append_dropWhile]
  · exact List.all_eq_true.1 List.all_takeWhile
  · intro a ha
    have hhead : (as.dropWhile p).head? = some a := by
      rw [hrest, List.head?_append, ha, Option.some_or]
    exact head_dropWhile hhead
  · intro a ha
    rw [strip, List.getLast?_reverse] at ha
    exact head_dropWhile ha
  · intro a ha
    exact List.all_eq_true.1 List.all_takeWhile a (List.mem_reverse.1 ha)

/-- There is one way to leave out elements of the class until none is at an end. -/
theorem strip_eq (hbefore : ∀ a ∈ before, p a = true) (hmiddle : Stripped p middle)
    (hafter : ∀ a ∈ after, p a = true) : strip p (before ++ (middle ++ after)) = middle := by
  have hafter' : ∀ a ∈ after.reverse, p a = true := fun a ha => hafter a (List.mem_reverse.1 ha)
  rw [strip, List.dropWhile_append_of_pos hbefore]
  cases middle with
  | nil =>
    rw [List.nil_append, ← List.append_nil after, List.dropWhile_append_of_pos hafter]
    rfl
  | cons a middle =>
    have hhead : ∀ c, (a :: middle ++ after).head? = some c → p c = false := hmiddle.head
    have hlast : ∀ c, (a :: middle).reverse.head? = some c → p c = false := by
      intro c hc
      rw [List.head?_reverse] at hc
      exact hmiddle.last c hc
    rw [dropWhile_of_head hhead, List.reverse_append, List.dropWhile_append_of_pos hafter',
      dropWhile_of_head hlast, List.reverse_reverse]

theorem Stripped.strip_eq {as : List α} (h : Stripped p as) : strip p as = as := by
  have hstrip := DeviceSheet.strip_eq (List.forall_mem_nil _) h (List.forall_mem_nil _)
  rwa [List.nil_append, List.append_nil] at hstrip

/-- More elements of the class at the ends make no difference. -/
theorem strip_append (hbefore : ∀ a ∈ before, p a = true) (hafter : ∀ a ∈ after, p a = true) :
    strip p (before ++ (middle ++ after)) = strip p middle := by
  obtain ⟨before', after', hmiddle, hbefore', hstripped, hafter'⟩ := exists_strip p middle
  generalize strip p middle = core at hmiddle hstripped ⊢
  have hall : before ++ (middle ++ after) = (before ++ before') ++ (core ++ (after' ++ after)) := by
    simp only [hmiddle, List.append_assoc]
  rw [hall]
  refine strip_eq ?_ hstripped ?_
  · intro a ha
    exact (List.mem_append.1 ha).elim (hbefore a) (hbefore' a)
  · intro a ha
    exact (List.mem_append.1 ha).elim (hafter' a) (hafter a)

end Strip

/-! ## Trimming -/

namespace Text

variable {t before after : Text}

/-- What is trimmed off are spaces. -/
theorem exists_trim (t : Text) : ∃ before after : Text, t = before ++ (t.trim ++ after) ∧
    before.Over isSpace ∧ Stripped isSpace t.trim ∧ after.Over isSpace :=
  exists_strip isSpace t

/-- Spaces around a text are trimmed off. -/
theorem trim_append (hbefore : before.Over isSpace) (hafter : after.Over isSpace) :
    trim (before ++ (t ++ after)) = t.trim :=
  strip_append hbefore hafter

theorem trim_space_append (hbefore : before.Over isSpace) : trim (before ++ t) = t.trim := by
  have h := trim_append hbefore (t := t) (List.forall_mem_nil _)
  rwa [List.append_nil] at h

theorem trim_append_space (hafter : after.Over isSpace) : trim (t ++ after) = t.trim :=
  trim_append (List.forall_mem_nil _) hafter

/-- A trimmed text has nothing to be trimmed off. -/
theorem trim_trim (t : Text) : t.trim.trim = t.trim := by
  obtain ⟨before, after, -, -, hstripped, -⟩ := exists_trim t
  exact hstripped.strip_eq

theorem trim_trimStart (t : Text) : t.trimStart.trim = t.trim := by
  have h := trim_space_append (t := t.trimStart) (over_takeWhile isSpace t)
  rw [trimStart, List.takeWhile_append_dropWhile] at h
  exact h.symm

theorem trim_trimEnd (t : Text) : t.trimEnd.trim = t.trim := by
  have hspaces : Over isSpace (t.reverse.takeWhile isSpace).reverse := by
    intro c hc
    exact over_takeWhile isSpace t.reverse c (List.mem_reverse.1 hc)
  have h := trim_append_space (t := t.trimEnd) hspaces
  rw [trimEnd, ← List.reverse_append, List.takeWhile_append_dropWhile, List.reverse_reverse] at h
  exact h.symm

/-- Spaces and nothing else are trimmed to nothing. -/
theorem trim_eq_nil_iff : t.trim = [] ↔ t.Over isSpace := by
  constructor
  · intro h
    obtain ⟨before, after, ht, hbefore, -, hafter⟩ := exists_trim t
    rw [ht, h]
    exact over_append.2 ⟨hbefore, hafter⟩
  · intro h
    have hspaces := trim_space_append h (t := [])
    rwa [List.append_nil] at hspaces

/-- A carriage return at the end of a line is trimmed off anyway. -/
theorem trim_dropReturn (t : Text) : t.dropReturn.trim = t.trim := by
  unfold dropReturn
  split
  · next hlast =>
    obtain ⟨front, rfl⟩ := List.getLast?_eq_some_iff.1 hlast
    rw [List.dropLast_concat, trim_append_space (by decide)]
  · rfl

/-! ## Pieces between line feeds -/

theorem newline_notMem_of_splitOn {pieces : List Text} (ht : t.splitOn '\n' = pieces) :
    ∀ piece ∈ pieces, '\n' ∉ piece := by
  rw [← ht]
  exact fun _ => notMem_of_mem_splitOn

theorem over_of_splitOn {p : Char → Bool} {pieces : List Text} (h : t.Over p)
    (ht : t.splitOn '\n' = pieces) : ∀ piece ∈ pieces, piece.Over p := by
  rw [← ht]
  refine forall_mem_splitOn (List.forall_mem_nil _) ?_
  exact fun c hc _ piece hpiece => List.forall_mem_cons.2 ⟨h c hc, hpiece⟩

/-- Two texts in a row have the pieces of both, with one piece where they meet. -/
theorem splitOn_append {u last first : Text} {ended others : List Text}
    (ht : t.splitOn '\n' = ended ++ [last]) (hu : u.splitOn '\n' = first :: others) :
    (t ++ u).splitOn '\n' = ended ++ (last ++ first) :: others := by
  have hnewline : ∀ piece ∈ ended ++ (last ++ first) :: others, '\n' ∉ piece := by
    have ht' := newline_notMem_of_splitOn ht
    have hu' := newline_notMem_of_splitOn hu
    simp only [List.mem_append, List.mem_cons, List.not_mem_nil, or_false] at ht' hu' ⊢
    rintro piece (hpiece | rfl | hpiece)
    · exact ht' piece (.inl hpiece)
    · rw [List.mem_append, not_or]
      exact ⟨ht' last (.inr rfl), hu' first (.inl rfl)⟩
    · exact hu' piece (.inr hpiece)
  have htext : t ++ u = ['\n'].intercalate (ended ++ (last ++ first) :: others) := by
    have ht' := intercalate_append_cons ['\n'] ended last []
    have hu' := intercalate_cons ['\n'] first others
    rw [← ht, List.intercalate_splitOn] at ht'
    rw [← hu, List.intercalate_splitOn] at hu'
    rw [intercalate_append_cons, hu', ht']
    simp
  rw [htext, List.splitOn_intercalate '\n' hnewline (by simp)]

/-- The pieces of a text that has spaces only are trimmed to nothing. -/
theorem isEmpty_of_mem_map_trim {pieces : List Text}
    (hpieces : ∀ piece ∈ pieces, piece.Over isSpace) :
    ∀ line ∈ pieces.map trim, line.isEmpty = true := by
  intro line hline
  obtain ⟨piece, hpiece, rfl⟩ := List.mem_map.1 hline
  rw [trim_eq_nil_iff.2 (hpieces piece hpiece)]
  rfl

/-- Spaces around a text make empty lines there, when the lines are trimmed. -/
theorem exists_empty_lines (hbefore : before.Over isSpace) (hafter : after.Over isSpace)
    (t : Text) : ∃ above below : List Text, (∀ line ∈ above, line.isEmpty = true) ∧
      (∀ line ∈ below, line.isEmpty = true) ∧
      ((before ++ (t ++ after)).splitOn '\n').map trim =
        above ++ ((t.splitOn '\n').map trim ++ below) := by
  obtain ⟨ended, last, ht, -⟩ := exists_pieces t
  obtain ⟨first, others, ha⟩ := List.exists_cons_of_ne_nil (List.splitOn_ne_nil '\n' after)
  obtain ⟨ended', last', hb, -⟩ := exists_pieces before
  obtain ⟨first', others', hta⟩ :=
    List.exists_cons_of_ne_nil (List.splitOn_ne_nil '\n' (t ++ after))
  have hafter' := over_of_splitOn hafter ha
  have hbefore' := over_of_splitOn hbefore hb
  rw [List.forall_mem_cons] at hafter'
  rw [List.forall_mem_append, List.forall_mem_singleton] at hbefore'
  refine ⟨ended'.map trim, others.map trim, isEmpty_of_mem_map_trim hbefore'.1,
    isEmpty_of_mem_map_trim hafter'.2, ?_⟩
  have hbelow : ((t ++ after).splitOn '\n').map trim =
      (t.splitOn '\n').map trim ++ others.map trim := by
    rw [splitOn_append ht ha, ht]
    simp [trim_append_space hafter'.1]
  rw [splitOn_append hb hta, ← hbelow, hta]
  simp [trim_space_append hbefore'.2]

/-! ## The core of a text -/

/-- The lines of a text, each without the spaces at its ends, from the first to the last that is not
empty. -/
def core (t : Text) : List Text := strip List.isEmpty ((t.splitOn '\n').map trim)

/-- Spaces around a text do not matter for its core. -/
theorem core_append (hbefore : before.Over isSpace) (hafter : after.Over isSpace) :
    core (before ++ (t ++ after)) = t.core := by
  obtain ⟨above, below, habove, hbelow, hlines⟩ := exists_empty_lines hbefore hafter t
  rw [core, hlines, strip_append habove hbelow, core]

theorem splitOn_single {c : Char} (hc : c ≠ '\n') : [c].splitOn '\n' = [[c]] := by
  rw [List.splitOn_cons_eq_if_modifyHead, if_neg (by simpa using hc), List.splitOn_nil,
    List.modifyHead_cons]

theorem isEmpty_trim_of_mem {c : Char} (hmem : c ∈ t) (hc : isSpace c = false) :
    t.trim.isEmpty = false := by
  rw [List.isEmpty_eq_false_iff]
  intro hempty
  rw [trim_eq_nil_iff.1 hempty c hmem] at hc
  cases hc

/-- A text that starts and ends with other characters than spaces starts and ends with lines that
are not empty. -/
theorem stripped_lines (h : Stripped isSpace t) (hne : t ≠ []) :
    Stripped List.isEmpty ((t.splitOn '\n').map trim) := by
  have hnewline : ∀ {c}, isSpace c = false → c ≠ '\n' := by
    rintro c hc rfl
    cases hc
  constructor
  · obtain ⟨c, rest, rfl⟩ := List.exists_cons_of_ne_nil hne
    have hc := h.head c rfl
    obtain ⟨first, others, hrest⟩ := List.exists_cons_of_ne_nil (List.splitOn_ne_nil '\n' rest)
    have hfirst : [c].splitOn '\n' = [] ++ [[c]] := splitOn_single (hnewline hc)
    have hpieces : (c :: rest).splitOn '\n' = (c :: first) :: others := splitOn_append hfirst hrest
    intro line hline
    rw [hpieces] at hline
    cases hline
    exact isEmpty_trim_of_mem List.mem_cons_self hc
  · obtain ⟨rest, c, rfl⟩ := (List.eq_nil_or_concat t).resolve_left hne
    rw [List.concat_eq_append] at h ⊢
    have hc := h.last c List.getLast?_concat
    obtain ⟨ended, last, hrest, -⟩ := exists_pieces rest
    have hpieces := splitOn_append hrest (splitOn_single (hnewline hc))
    intro line hline
    rw [hpieces, List.map_append, List.map_singleton, List.getLast?_concat] at hline
    cases hline
    exact isEmpty_trim_of_mem (by simp) hc

/-- The lines of the trimmed text are trimmed to the core. -/
theorem map_trim_lines (t : Text) : t.trim.lines.map trim = t.core := by
  obtain ⟨before, after, ht, hbefore, hstripped, hafter⟩ := exists_trim t
  have hcore : t.core = t.trim.core :=
    calc
      t.core = core (before ++ (t.trim ++ after)) := by rw [← ht]
      _ = t.trim.core := core_append hbefore hafter
  rw [hcore]
  generalize t.trim = middle at hstripped ⊢
  by_cases hne : middle = []
  · rw [hne]
    decide
  · have hlines := stripped_lines hstripped hne
    obtain ⟨ended, last, hpieces, hlines'⟩ := exists_pieces middle
    have hlast : last ≠ [] := by
      rintro rfl
      rw [hpieces, List.map_append, List.map_singleton] at hlines
      cases hlines.last [] List.getLast?_concat
    have hended : (ended.map dropReturn).map trim = ended.map trim := by
      rw [List.map_map]
      exact List.map_congr_left fun line _ => trim_dropReturn line
    rw [core, hlines.strip_eq, hlines', if_neg hlast, hpieces, List.map_append, List.map_append,
      hended]

/-! ## Changes that keep the core -/

/-- A text that is written line by line has the core that the lines have. -/
theorem core_intercalate {ls : List Text} (hne : ls ≠ []) (hnewline : ∀ line ∈ ls, '\n' ∉ line) :
    core (['\n'].intercalate ls) = strip List.isEmpty (ls.map trim) := by
  rw [core, List.splitOn_intercalate '\n' hnewline hne]

/-- The text with other spaces in front of its lines. -/
def reindent (indent : Nat → Text) (t : Text) : Text :=
  ['\n'].intercalate ((t.splitOn '\n').mapIdx fun i line => indent i ++ trimStart line)

theorem core_reindent {indent : Nat → Text} (hspace : ∀ i, (indent i).Over isSpace)
    (hnewline : ∀ i, '\n' ∉ indent i) (t : Text) : (t.reindent indent).core = t.core := by
  rw [reindent, core_intercalate, core]
  · congr 1
    refine List.ext_getElem? fun i => ?_
    rw [List.getElem?_map, List.getElem?_mapIdx, List.getElem?_map, Option.map_map]
    congr 1
    funext line
    exact (trim_space_append (hspace i)).trans (trim_trimStart line)
  · simp
  · intro line hline
    obtain ⟨i, hi, rfl⟩ := List.mem_mapIdx.1 hline
    rw [List.mem_append, not_or]
    refine ⟨hnewline i, fun hmem => ?_⟩
    exact notMem_of_mem_splitOn (List.getElem_mem hi) ((List.dropWhile_sublist isSpace).mem hmem)

/-- The text with a carriage return before each line feed. -/
def withReturns (t : Text) : Text :=
  t.flatMap fun c => if c = '\n' then ['\r', '\n'] else [c]

theorem withReturns_of_notMem (h : '\n' ∉ t) : t.withReturns = t := by
  induction t with
  | nil => rfl
  | cons c t ih =>
    rw [List.mem_cons, not_or] at h
    change (if c = '\n' then ['\r', '\n'] else [c]) ++ withReturns t = c :: t
    rw [if_neg (Ne.symm h.1), ih h.2]
    rfl

/-- A line ends in a carriage return if another line comes behind it. -/
theorem withReturns_intercalate {ended : List Text} {last : Text}
    (h : ∀ line ∈ ended ++ [last], '\n' ∉ line) :
    withReturns (['\n'].intercalate (ended ++ [last])) =
      ['\n'].intercalate (ended.map (· ++ ['\r']) ++ [last]) := by
  induction ended with
  | nil => simpa [List.intercalate_singleton] using withReturns_of_notMem (h last (by simp))
  | cons line ended ih =>
    obtain ⟨hline, h⟩ := List.forall_mem_cons.1 h
    have happend : ∀ t u : Text, withReturns (t ++ u) = t.withReturns ++ u.withReturns :=
      fun _ _ => List.flatMap_append
    have hbreak : withReturns ['\n'] = ['\r', '\n'] := rfl
    rw [List.cons_append, List.intercalate_cons_of_ne_nil (by simp), happend, happend, ih h,
      withReturns_of_notMem hline, hbreak, List.map_cons, List.cons_append,
      List.intercalate_cons_of_ne_nil (by simp)]
    simp

theorem core_withReturns (t : Text) : t.withReturns.core = t.core := by
  obtain ⟨ended, last, hpieces, -⟩ := exists_pieces t
  have hnewline := newline_notMem_of_splitOn hpieces
  have htext : t.withReturns = ['\n'].intercalate (ended.map (· ++ ['\r']) ++ [last]) := by
    rw [← withReturns_intercalate hnewline, ← hpieces, List.intercalate_splitOn]
  have htrim : (ended.map (· ++ ['\r'])).map trim = ended.map trim := by
    rw [List.map_map]
    exact List.map_congr_left fun line _ => trim_append_space (by decide)
  have hnewline' : ∀ line ∈ ended.map (· ++ ['\r']) ++ [last], '\n' ∉ line := by
    simpa [or_imp, forall_and] using hnewline
  rw [htext, core_intercalate (by simp) hnewline', core, hpieces, List.map_append, List.map_append,
    htrim]

end Text

end DeviceSheet
