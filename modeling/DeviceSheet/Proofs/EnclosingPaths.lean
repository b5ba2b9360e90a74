import DeviceSheet.Path
import DeviceSheet.Proofs.Lines

/-!
# Paths and the directories around them

A directory around a path is written as a part at the front of the path.  The part ends
where a piece ends, so the walk along the path begins with the walk to the directory.  `Path.Above`
says both, of the texts and of the steps.  So both paths start alike (`Path.Above.lead`).

* The parents of a path are above it, and each is above those nearer to the path
  (`Path.pairwise_parents`).
* The parents of the nearest one are the others (`Path.parents_of_parents_eq_cons`).
* A path that is joined to a directory has the steps of both, one after the other
  (`Path.steps_join`).  So the directory is above it (`Path.above_join`).
-/

namespace DeviceSheet

namespace Path

/-! ## Steps -/

theorem pieces_append_slash (t u : Text) :
    pieces ⟨t ++ '/' :: u⟩ = pieces ⟨t⟩ ++ pieces ⟨u⟩ :=
  List.splitOn_append_cons_self t u

theorem steps_append_slash (t u : Text) :
    steps ⟨t ++ '/' :: u⟩ = steps ⟨t⟩ ++ steps ⟨u⟩ := by
  simp only [steps, pieces_append_slash, List.filterMap_append]

@[simp] theorem steps_empty : steps ⟨[]⟩ = [] := rfl

/-- No step goes back to the root. -/
theorem root_notMem_steps (p : Path) : .root ∉ p.steps := by
  intro h
  obtain ⟨piece, -, hpiece⟩ := List.mem_filterMap.1 h
  unfold Component.ofPiece? at hpiece
  split at hpiece <;> cases hpiece

theorem steps_join {base q : Path} (hq : q.isRooted = false) :
    (base.join q).steps = base.steps ++ q.steps := by
  rw [join, hq, if_neg Bool.false_ne_true]
  obtain ⟨t⟩ := base
  split
  · next h =>
    rcases Bool.or_eq_true_iff.1 h with hempty | hslash
    · obtain rfl : t = [] := of_decide_eq_true hempty
      rfl
    · obtain ⟨u, rfl⟩ := List.getLast?_eq_some_iff.1 (of_decide_eq_true hslash)
      have hend : steps ⟨u ++ ['/']⟩ = steps ⟨u⟩ := by
        simp [steps_append_slash]
      rw [hend, List.append_assoc]
      exact steps_append_slash u q.text
  · exact steps_append_slash t q.text

/-! ## Directories around a path -/

/-- The one path is a part of the other at its front, as a text and step by step. -/
structure Above (outer inner : Path) : Prop where
  text : outer.text <+: inner.text
  steps : outer.steps <+: inner.steps

namespace Above

variable {p q r : Path}

theorem refl (p : Path) : p.Above p := ⟨List.prefix_refl _, List.prefix_refl _⟩

theorem trans (h : p.Above q) (h' : q.Above r) : p.Above r :=
  ⟨h.text.trans h'.text, h.steps.trans h'.steps⟩

theorem empty (p : Path) : Above ⟨[]⟩ p := ⟨List.nil_prefix, List.nil_prefix⟩

theorem slash (t u : Text) : Above ⟨t⟩ ⟨t ++ '/' :: u⟩ :=
  ⟨List.prefix_append .., by rw [steps_append_slash]; exact List.prefix_append ..⟩

/-- Both start at the same place, unless the directory has no text. -/
theorem isRooted (h : p.Above q) (hp : p.text ≠ []) : p.isRooted = q.isRooted := by
  obtain ⟨⟨rest, hrest⟩, -⟩ := h
  obtain ⟨c, t, ht⟩ := List.exists_cons_of_ne_nil hp
  rw [Path.isRooted, Path.isRooted, ← hrest, ht]
  rfl

end Above

/-- A directory is above what is joined to it. -/
theorem above_join {base q : Path} (hq : q.isRooted = false) : base.Above (base.join q) := by
  refine ⟨?_, ?_⟩
  · rw [join, hq, if_neg Bool.false_ne_true]
    split <;> exact List.prefix_append ..
  · rw [steps_join hq]
    exact List.prefix_append ..

end Path

/-! ## How a path starts -/

/-- A piece is empty, a single dot or one that moves. -/
theorem Component.ofPiece?_cases (piece : Text) :
    piece = [] ∧ ofPiece? piece = none ∨ piece = ['.'] ∧ ofPiece? piece = some .here ∨
      isIdle piece = false ∧ ∃ c, ofPiece? piece = some c ∧ c ≠ .here ∧ c ≠ .root := by
  unfold ofPiece?
  split
  · exact .inl ⟨rfl, rfl⟩
  · exact .inr (.inl ⟨rfl, rfl⟩)
  · exact .inr (.inr ⟨rfl, .up, rfl, by simp⟩)
  · next hempty hdot _ =>
    refine .inr (.inr ⟨?_, .name piece, rfl, by simp⟩)
    rw [isIdle, Bool.or_eq_false_iff]
    exact ⟨decide_eq_false hempty, decide_eq_false hdot⟩

namespace Path

theorem exists_pieces (p : Path) : ∃ first more, p.pieces = first :: more :=
  List.exists_cons_of_ne_nil (List.splitOn_ne_nil '/' p.text)

/-- A path with a text that does not start at the root starts with a piece that is not empty. -/
theorem exists_pieces_of_isRooted {p : Path} (hne : p.text ≠ []) (hroot : p.isRooted = false) :
    ∃ c first more, p.pieces = (c :: first) :: more := by
  obtain ⟨c, t, ht⟩ := List.exists_cons_of_ne_nil hne
  obtain ⟨first, more, hpieces⟩ := exists_pieces ⟨t⟩
  have hslash : c ≠ '/' := by
    rintro rfl
    rw [isRooted, ht] at hroot
    cases hroot
  refine ⟨c, first, more, ?_⟩
  change t.splitOn '/' = _ at hpieces
  rw [pieces, ht, List.splitOn_cons_eq_if_modifyHead, if_neg (by simpa using hslash), hpieces,
    List.modifyHead_cons]

theorem steps_ne_nil {p : Path} (hne : p.text ≠ []) (hroot : p.isRooted = false) :
    p.steps ≠ [] := by
  obtain ⟨c, first, more, hpieces⟩ := exists_pieces_of_isRooted hne hroot
  rw [steps, hpieces]
  rcases Component.ofPiece?_cases (c :: first) with ⟨hempty, -⟩ | ⟨-, hm⟩ | ⟨-, m, hm, -⟩
  · cases hempty
  · simp [List.filterMap_cons_some hm]
  · simp [List.filterMap_cons_some hm]

/-- How a path starts can be told from its root and its first step. -/
theorem lead_eq (p : Path) :
    p.lead =
      if p.isRooted then .root else if p.steps.head? = some .here then .here else .plain := by
  obtain ⟨t⟩ := p
  rcases t with _ | ⟨c, t⟩
  · rfl
  cases hroot : isRooted ⟨c :: t⟩ with
  | true =>
    obtain rfl : c = '/' := by simpa [isRooted] using hroot
    obtain ⟨first, more, hpieces⟩ := exists_pieces ⟨t⟩
    have hslash : pieces ⟨'/' :: t⟩ = [] :: first :: more := by
      rw [← hpieces]
      exact pieces_append_slash [] t
    rw [lead, hslash, if_pos rfl]
  | false =>
    obtain ⟨c', first, more, hpieces⟩ := exists_pieces_of_isRooted (List.cons_ne_nil c t) hroot
    rw [lead, steps, hpieces, if_neg Bool.false_ne_true]
    rcases Component.ofPiece?_cases (c' :: first) with
      ⟨hempty, -⟩ | ⟨hdot, -⟩ | ⟨hidle, m, hm, hhere, -⟩
    · cases hempty
    · rw [hdot]
      rfl
    · rw [List.filterMap_cons_some hm, List.head?_cons, if_neg (by simpa using hhere)]
      split
      · next heq => cases heq
      · next heq =>
        cases heq
        cases hidle
      · rfl

/-- A path and a directory around it start alike, unless the directory has no text. -/
theorem Above.lead {outer inner : Path} (h : outer.Above inner) (hne : outer.text ≠ []) :
    inner.lead = outer.lead := by
  rw [lead_eq, lead_eq, h.isRooted hne]
  split
  · rfl
  · next hroot =>
    rw [Bool.not_eq_true, ← h.isRooted hne] at hroot
    obtain ⟨step, steps, hsteps⟩ := List.exists_cons_of_ne_nil (steps_ne_nil hne hroot)
    obtain ⟨rest, hrest⟩ := h.steps
    rw [← hrest, hsteps, List.cons_append, List.head?_cons, List.head?_cons]

end Path

/-! ## Names -/

/-- The text is a name as it stands in a path: it has no slash in it, is not empty and is neither a
single dot nor two dots. -/
structure IsName (text : Text) : Prop where
  slash_notMem : '/' ∉ text
  ofPiece? : Component.ofPiece? text = some (.name text)

instance decidableIsName (text : Text) : Decidable (IsName text) :=
  decidable_of_iff ('/' ∉ text ∧ Component.ofPiece? text = some (.name text))
    ⟨fun ⟨h₁, h₂⟩ => ⟨h₁, h₂⟩, fun ⟨h₁, h₂⟩ => ⟨h₁, h₂⟩⟩

theorem IsName.steps {text : Text} (h : IsName text) : Path.steps ⟨text⟩ = [.name text] := by
  have hpieces : text.splitOn '/' = [text] :=
    List.splitOnP_eq_singleton fun c hc => by
      rw [beq_eq_false_iff_ne]
      rintro rfl
      exact h.slash_notMem hc
  rw [Path.steps, Path.pieces, hpieces, List.filterMap_cons_some h.ofPiece?, List.filterMap_nil]

theorem IsName.isRooted {text : Text} (h : IsName text) : Path.isRooted ⟨text⟩ = false :=
  decide_eq_false fun hhead => h.slash_notMem (List.mem_of_head? hhead)

/-! ## Parents -/

namespace Lead

theorem intercalate_append {outer more : List Text} (houter : outer ≠ []) (hmore : more ≠ []) :
    ['/'].intercalate (outer ++ more) =
      ['/'].intercalate outer ++ '/' :: ['/'].intercalate more := by
  induction outer with
  | nil => exact absurd rfl houter
  | cons piece outer ih =>
    cases outer with
    | nil => simp [List.intercalate_cons_of_ne_nil hmore]
    | cons next outer =>
      rw [List.cons_append, List.intercalate_cons_of_ne_nil (by simp), ih (by simp),
        List.intercalate_cons_cons]
      simp

/-- Fewer pieces make a directory around. -/
theorem above_path (lead : Lead) {outer inner : List Text} (h : outer <+: inner) :
    (lead.path outer).Above (lead.path inner) := by
  obtain ⟨more, rfl⟩ := h
  by_cases hmore : more = []
  · rw [hmore, List.append_nil]
    exact .refl _
  cases lead with
  | here =>
    rw [path, path, ← List.cons_append, intercalate_append (List.cons_ne_nil _ _) hmore]
    exact .slash ..
  | root =>
    by_cases houter : outer = []
    · rw [houter]
      exact ⟨⟨_, rfl⟩, List.nil_prefix⟩
    · rw [path, path, intercalate_append houter hmore, ← List.cons_append]
      exact .slash ..
  | plain =>
    by_cases houter : outer = []
    · rw [houter]
      exact .empty _
    · rw [path, path, intercalate_append houter hmore]
      exact .slash ..

/-- Without the idle pieces at its end a path names a directory around, or the same. -/
theorem prefix_without_idle (pieces : List Text) :
    (pieces.dropWhile isIdle).reverse <+: pieces.reverse :=
  List.reverse_prefix.2 (List.dropWhile_suffix _)

/-- The parents stand in order, nearest first, and all of them are above the path that the pieces
make without the idle ones at its end. -/
theorem pairwise_parents (lead : Lead) (pieces : List Text) :
    (lead.path (pieces.dropWhile isIdle).reverse :: lead.parents pieces).Pairwise
      fun inner outer => outer.Above inner := by
  induction pieces with
  | nil =>
    cases lead with
    | here => exact .cons (by simp [parents, Path.Above.empty]) (by simp [parents])
    | root | plain => exact .cons (by simp [parents]) (by simp [parents])
  | cons piece before ih =>
    by_cases hidle : isIdle piece = true
    · rw [parents, if_pos hidle, List.dropWhile_cons_of_pos hidle]
      exact ih
    · rw [parents, if_neg hidle, List.dropWhile_cons_of_neg hidle]
      have hnear : (lead.path (before.dropWhile isIdle).reverse).Above
          (lead.path (piece :: before).reverse) := by
        refine lead.above_path ((prefix_without_idle before).trans ?_)
        rw [List.reverse_cons]
        exact List.prefix_append ..
      refine .cons (fun outer houter => ?_) ih
      rcases List.mem_cons.1 houter with rfl | houter
      · exact hnear
      · exact (List.rel_of_pairwise_cons ih houter).trans hnear

end Lead

namespace Path

/-- A path is its start and its pieces. -/
theorem path_body (p : Path) : p.lead.path p.body = p := by
  have htext : ['/'].intercalate p.pieces = p.text := List.intercalate_splitOn '/'
  obtain ⟨t⟩ := p
  unfold body lead
  split
  · next first more hpieces =>
    rw [hpieces] at htext
    simp only [Lead.path, hpieces, List.tail_cons]
    exact congrArg Path.mk htext
  · next more hpieces =>
    rw [hpieces] at htext
    simp only [Lead.path, hpieces, List.tail_cons]
    exact congrArg Path.mk htext
  · exact congrArg Path.mk htext

/-- The parents of a path stand in order, nearest first, and all of them are above the path. -/
theorem pairwise_parents (p : Path) :
    (p :: p.parents).Pairwise fun inner outer => outer.Above inner := by
  have h := p.lead.pairwise_parents p.body.reverse
  have hself : (p.lead.path (p.body.reverse.dropWhile isIdle).reverse).Above p := by
    have hfront := Lead.prefix_without_idle p.body.reverse
    rw [List.reverse_reverse] at hfront
    have habove := p.lead.above_path hfront
    rw [path_body] at habove
    exact habove
  refine .cons (fun outer houter => ?_) h.of_cons
  exact (List.rel_of_pairwise_cons h houter).trans hself

end Path

/-! ## Parents of a parent -/

/-- No piece of a path has a slash in it. -/
theorem Path.slash_notMem_of_mem_pieces {p : Path} {piece : Text} (h : piece ∈ p.pieces) :
    '/' ∉ piece := Text.notMem_of_mem_splitOn h

/-- Idle pieces at the end make no parents. -/
theorem Lead.parents_dropWhile (lead : Lead) (pieces : List Text) :
    lead.parents (pieces.dropWhile isIdle) = lead.parents pieces := by
  induction pieces with
  | nil => rfl
  | cons piece before ih =>
    by_cases hidle : isIdle piece = true
    · rw [List.dropWhile_cons_of_pos hidle, ih, parents, if_pos hidle]
    · rw [List.dropWhile_cons_of_neg hidle]

namespace Path

theorem slash_notMem_of_mem_body {p : Path} {piece : Text} (h : piece ∈ p.body) : '/' ∉ piece := by
  refine slash_notMem_of_mem_pieces (p := p) ?_
  unfold body at h
  split at h
  · exact h
  · exact List.mem_of_mem_tail h

theorem pieces_intercalate {pieces : List Text} (hne : pieces ≠ [])
    (hslash : ∀ piece ∈ pieces, '/' ∉ piece) : Path.pieces ⟨['/'].intercalate pieces⟩ = pieces :=
  List.splitOn_intercalate '/' hslash hne

/-- The first pieces of a path make a path that starts as it does. -/
theorem lead_front {p : Path} {front : List Text} (h : front <+: p.body) :
    (p.lead.path front).lead = p.lead := by
  have habove := p.lead.above_path h
  rw [path_body] at habove
  by_cases hne : (p.lead.path front).text = []
  · have hempty : p.lead.path front = ⟨[]⟩ := congrArg Path.mk hne
    rw [hempty]
    cases hlead : p.lead with
    | plain => rfl
    | root =>
      rw [hlead] at hne
      cases hne
    | here =>
      rw [hlead] at hne
      cases front <;> cases hne
  · exact (habove.lead hne).symm

/-- The first pieces of a path make a path with these pieces, or with an empty one if there are
none. -/
theorem body_front {p : Path} {front : List Text} (h : front <+: p.body) :
    (p.lead.path front).body = front ∨ front = [] ∧ (p.lead.path front).body = [[]] := by
  have hslash : ∀ piece ∈ front, '/' ∉ piece :=
    fun piece hpiece => slash_notMem_of_mem_body (h.subset hpiece)
  unfold body
  rw [lead_front h]
  cases hlead : p.lead with
  | here =>
    have hpieces : (Lead.here.path front).pieces = ['.'] :: front := by
      refine pieces_intercalate (by simp) fun piece hpiece => ?_
      rcases List.mem_cons.1 hpiece with rfl | hpiece
      · decide
      · exact hslash piece hpiece
    exact .inl (congrArg List.tail hpieces)
  | root =>
    rcases front with _ | ⟨first, more⟩
    · exact .inr ⟨rfl, rfl⟩
    · have hpieces : (Lead.root.path (first :: more)).pieces = [] :: first :: more := by
        have hslashed := pieces_append_slash [] (['/'].intercalate (first :: more))
        rw [pieces_intercalate (List.cons_ne_nil first more) hslash] at hslashed
        exact hslashed
      exact .inl (congrArg List.tail hpieces)
  | plain =>
    rcases front with _ | ⟨first, more⟩
    · exact .inr ⟨rfl, rfl⟩
    · exact .inl (pieces_intercalate (List.cons_ne_nil first more) hslash)

theorem parents_front {p : Path} {front : List Text} (h : front <+: p.body) :
    (p.lead.path front).parents = p.lead.parents front.reverse := by
  rw [parents, lead_front h]
  rcases body_front h with hbody | ⟨rfl, hbody⟩
  · rw [hbody]
  · rw [hbody]
    rfl

/-- The parents of a path are the nearest one and the parents of that one. -/
theorem parents_of_parents_eq_cons {p q : Path} {others : List Path}
    (h : p.parents = q :: others) : q.parents = others := by
  have hgo : ∀ pieces : List Text, pieces.reverse <+: p.body →
      p.lead.parents pieces = q :: others → q.parents = others := by
    intro pieces hpieces hparents
    induction pieces with
    | nil =>
      rw [Lead.parents] at hparents
      split at hparents
      · cases hparents
        rfl
      · cases hparents
    | cons piece before ih =>
      rw [List.reverse_cons] at hpieces
      have hbefore := (List.prefix_append _ _).trans hpieces
      rw [Lead.parents] at hparents
      split at hparents
      · exact ih hbefore hparents
      · cases hparents
        rw [parents_front ((Lead.prefix_without_idle before).trans hbefore), List.reverse_reverse,
          Lead.parents_dropWhile]
  exact hgo p.body.reverse (by simp) h

end Path

end DeviceSheet
