import DeviceSheet.Text.Space

/-!
# Lines and paragraphs

A text is often written line by line, with a line feed after each line.  Cut at the line feeds it
gives the lines back, if none of them has a line feed in it.  Empty lines then tell groups of lines
apart, its *paragraphs* (`Text.paragraphs_intercalate`).

In the other direction, the lines of a text have no line feed in them, and neither does anything
that is cut out of a line.
-/

namespace DeviceSheet.Text

/-! ## Cutting at a character -/

/-- What holds of the empty text and goes on holding with one more character in front, other than
the one that the text is cut at, holds of all pieces. -/
theorem forall_mem_splitOn {P : Text → Prop} {c : Char} {t : Text} (nil : P [])
    (cons : ∀ c' ∈ t, c' ≠ c → ∀ piece, P piece → P (c' :: piece)) :
    ∀ piece ∈ t.splitOn c, P piece := by
  induction t with
  | nil =>
    rw [List.splitOn_nil, List.forall_mem_singleton]
    exact nil
  | cons c' t ih =>
    obtain ⟨hfirst, cons⟩ := List.forall_mem_cons.1 cons
    replace ih := ih cons
    rw [List.splitOn_cons_eq_if_modifyHead]
    split
    · exact List.forall_mem_cons.2 ⟨nil, ih⟩
    · next hne =>
      obtain ⟨first, others, hpieces⟩ := List.exists_cons_of_ne_nil (List.splitOn_ne_nil c t)
      rw [hpieces, List.forall_mem_cons] at ih
      rw [hpieces, List.modifyHead_cons, List.forall_mem_cons]
      exact ⟨hfirst (by simpa using hne) first ih.1, ih.2⟩

/-- No piece of a text has the character in it that the text is cut at. -/
theorem notMem_of_mem_splitOn {c : Char} {t piece : Text} (h : piece ∈ t.splitOn c) :
    c ∉ piece := by
  refine forall_mem_splitOn (P := fun piece => c ∉ piece) List.not_mem_nil ?_ piece h
  intro c' _ hne piece hpiece
  rw [List.mem_cons, not_or]
  exact ⟨Ne.symm hne, hpiece⟩

/-- Texts with a separator between neighbours, as seen from the first. -/
theorem intercalate_cons (sep t : Text) (after : List Text) :
    sep.intercalate (t :: after) = t ++ after.flatMap (sep ++ ·) := by
  induction after generalizing t with
  | nil => simp [List.intercalate_singleton]
  | cons next after ih =>
    rw [List.intercalate_cons_cons, ih]
    simp

/-- Texts with a separator between neighbours, as seen from one of them. -/
theorem intercalate_append_cons (sep : Text) (before : List Text) (t : Text) (after : List Text) :
    sep.intercalate (before ++ t :: after) =
      before.flatMap (· ++ sep) ++ (t ++ after.flatMap (sep ++ ·)) := by
  induction before with
  | nil => exact intercalate_cons sep t after
  | cons first before ih =>
    rw [List.cons_append, List.intercalate_cons_of_ne_nil (by simp), ih]
    simp

/-- The text with the given lines, each ended by a line feed. -/
def ofLines (ls : List Text) : Text := ls.flatMap (· ++ ['\n'])

@[simp] theorem ofLines_nil : ofLines [] = [] := rfl

@[simp] theorem ofLines_cons (line : Text) (ls : List Text) :
    ofLines (line :: ls) = line ++ '\n' :: ofLines ls := by
  simp [ofLines]

@[simp] theorem ofLines_append (ls ms : List Text) :
    ofLines (ls ++ ms) = ofLines ls ++ ofLines ms := by
  simp [ofLines]

/-- The lines of a text come back, and an empty piece after the last line feed. -/
theorem splitOn_ofLines {ls : List Text} (h : ∀ line ∈ ls, '\n' ∉ line) :
    (ofLines ls).splitOn '\n' = ls ++ [[]] := by
  induction ls with
  | nil => rfl
  | cons line ls ih =>
    rw [List.forall_mem_cons] at h
    rw [ofLines_cons, List.splitOn_append_cons_self_of_not_mem h.1, ih h.2, List.cons_append]

/-! ## Paragraphs -/

/-- The groups of lines between empty lines. -/
def paragraphs (t : Text) : List (List Text) :=
  ((t.splitOn '\n').splitOn []).filter (· ≠ [])

/-- Groups of lines with an empty line between neighbours are written line by line. -/
theorem intercalate_ofLines (groups : List (List Text)) :
    ['\n'].intercalate (groups.map ofLines) = ofLines ([[]].intercalate groups) := by
  induction groups with
  | nil => rfl
  | cons group groups ih =>
    cases groups with
    | nil => simp [List.intercalate_singleton]
    | cons next groups =>
      rw [List.map_cons, List.map_cons, List.intercalate_cons_cons, List.intercalate_cons_cons,
        ofLines_append, ofLines_append, ← ih, List.map_cons]
      rfl

theorem mem_intercalate_nil {groups : List (List Text)} {line : Text}
    (h : line ∈ [[]].intercalate groups) : line = [] ∨ ∃ group ∈ groups, line ∈ group := by
  induction groups with
  | nil => simp [List.intercalate] at h
  | cons group groups ih =>
    cases groups with
    | nil =>
      rw [List.intercalate_singleton] at h
      exact .inr ⟨group, List.mem_cons_self, h⟩
    | cons next groups =>
      rw [List.intercalate_cons_cons, List.mem_append, List.mem_append, List.mem_singleton] at h
      rcases h with (h | h) | h
      · exact .inr ⟨group, List.mem_cons_self, h⟩
      · exact .inl h
      · rcases ih h with h | ⟨group', hgroup, hline⟩
        · exact .inl h
        · exact .inr ⟨group', List.mem_cons_of_mem _ hgroup, hline⟩

/-- Groups of lines that are neither empty nor have empty lines are the paragraphs of their text. -/
theorem paragraphs_intercalate {groups : List (List Text)} (hne : ∀ group ∈ groups, group ≠ [])
    (hlines : ∀ group ∈ groups, ∀ line ∈ group, line ≠ [] ∧ '\n' ∉ line) :
    paragraphs (['\n'].intercalate (groups.map ofLines)) = groups := by
  have hfree : ∀ line ∈ [[]].intercalate groups, '\n' ∉ line := by
    intro line hline
    rcases mem_intercalate_nil hline with rfl | ⟨group, hgroup, hline⟩
    · exact List.not_mem_nil
    · exact (hlines group hgroup line hline).2
  rw [paragraphs, intercalate_ofLines, splitOn_ofLines hfree, List.splitOn_append_cons_self,
    List.splitOn_nil, List.filter_append]
  cases groups with
  | nil => rfl
  | cons group groups =>
    rw [List.splitOn_intercalate [] (fun g hg hempty => (hlines g hg [] hempty).1 rfl) (by simp),
      List.filter_eq_self.2 fun g hg => by simpa using hne g hg]
    simp

/-! ## The lines of a text -/

theorem dropReturn_sublist (t : Text) : t.dropReturn.Sublist t := by
  unfold dropReturn
  split
  · exact List.dropLast_sublist t
  · exact List.Sublist.refl t

/-- The lines of a text are its pieces between line feeds.  A piece before a line feed loses its
carriage return, and an empty piece at the end is no line. -/
theorem lines_of_pieces {t last : Text} {ended : List Text}
    (h : t.splitOn '\n' = ended ++ [last]) :
    t.lines = ended.map dropReturn ++ if last = [] then [] else [last] := by
  simp only [lines, h, List.dropLast_concat, List.getLast?_concat]
  cases last <;> simp

theorem exists_pieces (t : Text) :
    ∃ (ended : List Text) (last : Text), t.splitOn '\n' = ended ++ [last] ∧
      t.lines = ended.map dropReturn ++ if last = [] then [] else [last] := by
  obtain ⟨ended, last, hpieces⟩ := (List.eq_nil_or_concat (t.splitOn '\n')).resolve_left
    (List.splitOn_ne_nil '\n' t)
  rw [List.concat_eq_append] at hpieces
  exact ⟨ended, last, hpieces, lines_of_pieces hpieces⟩

/-- The lines up to a line feed and those behind it. -/
theorem lines_append_newline (t u : Text) :
    (t ++ '\n' :: u).lines = (t ++ ['\n']).lines ++ u.lines := by
  obtain ⟨ended, last, hpieces, hlines⟩ := exists_pieces u
  have hboth : (t ++ '\n' :: u).splitOn '\n' = (t.splitOn '\n' ++ ended) ++ [last] := by
    rw [List.splitOn_append_cons_self, hpieces, List.append_assoc]
  have hfirst : (t ++ ['\n']).splitOn '\n' = t.splitOn '\n' ++ [[]] := by
    rw [List.splitOn_append_cons_self, List.splitOn_nil]
  rw [lines_of_pieces hboth, lines_of_pieces hfirst, hlines]
  simp

/-- A line that is ended by a line feed, if it has neither line feeds in it nor a carriage return at
its end. -/
theorem lines_concat_newline {line : Text} (hnewline : '\n' ∉ line)
    (hreturn : line.getLast? ≠ some '\r') : (line ++ ['\n']).lines = [line] := by
  have hpieces : (line ++ ['\n']).splitOn '\n' = [line] ++ [[]] := by
    rw [List.splitOn_append_cons_self_of_not_mem hnewline, List.splitOn_nil]
    rfl
  simp [lines_of_pieces hpieces, dropReturn, hreturn]

/-- A text that is written line by line has the lines of each of them. -/
theorem lines_ofLines (ls : List Text) :
    (ofLines ls).lines = ls.flatMap fun line => lines (line ++ ['\n']) := by
  induction ls with
  | nil => rfl
  | cons line ls ih => rw [ofLines_cons, lines_append_newline, ih, List.flatMap_cons]

/-- There is no line feed in a line. -/
theorem newline_notMem_of_mem_lines {t line : Text} (h : line ∈ t.lines) : '\n' ∉ line := by
  have hended : ∀ {line}, line ∈ (t.splitOn '\n').dropLast.map dropReturn → '\n' ∉ line := by
    intro line hline hmem
    obtain ⟨piece, hpiece, rfl⟩ := List.mem_map.1 hline
    exact notMem_of_mem_splitOn ((List.dropLast_sublist _).mem hpiece)
      ((dropReturn_sublist piece).mem hmem)
  simp only [lines] at h
  split at h
  · next c cs hlast =>
    rcases List.mem_append.1 h with h | h
    · exact hended h
    · rw [List.mem_singleton.1 h]
      exact notMem_of_mem_splitOn (List.mem_of_getLast? hlast)
  · exact hended h

/-- What stands on a line between a first and a last part. -/
def between? (line first last : Text) : Option Text := do
  let rest ← line.after? first
  let front ← Text.after? rest.reverse last.reverse
  return front.reverse

theorem between?_eq_some {line first last t : Text} :
    line.between? first last = some t ↔ line = first ++ t ++ last := by
  simp only [between?, bind, Option.bind_eq_some_iff, after?_eq_some, pure, Option.some.injEq]
  constructor
  · rintro ⟨rest, rfl, front, hfront, rfl⟩
    have hrest : rest = front.reverse ++ last := by
      simpa using congrArg List.reverse hfront
    rw [hrest, List.append_assoc]
  · rintro rfl
    exact ⟨t ++ last, List.append_assoc _ _ _, t.reverse, List.reverse_append,
      List.reverse_reverse t⟩

theorem trimEnd_sublist (t : Text) : t.trimEnd.Sublist t := by
  simpa [trimEnd] using (List.dropWhile_sublist isSpace (l := t.reverse)).reverse

theorem trim_sublist (t : Text) : t.trim.Sublist t :=
  (trimEnd_sublist _).trans (List.dropWhile_sublist isSpace)

end DeviceSheet.Text
