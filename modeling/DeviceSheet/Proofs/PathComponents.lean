import DeviceSheet.Proofs.EnclosingPaths

/-!
# The components of joined paths and of directories

Two paths are the same if they have the same components.  The components are how the path starts and
its steps without the single dots (`Path.components_eq`).

* A path that is joined to a directory adds its components to those of the directory, if it starts
  with a name or two dots (`Path.components_join`).  A name adds itself
  (`Path.components_join_name`).
* Only the empty path has no components (`Path.components_eq_nil_iff`).
* The directory around a path has all components but the last one (`Path.components_parent?`).
-/

namespace DeviceSheet

/-! ## Pieces -/

namespace Component

/-- The components that pieces after the start of a path count for. -/
def ofPieces (pieces : List Text) : List Component :=
  (pieces.filterMap ofPiece?).filter (· ≠ .here)

@[simp] theorem ofPieces_append (pieces more : List Text) :
    ofPieces (pieces ++ more) = ofPieces pieces ++ ofPieces more := by
  simp [ofPieces]

theorem ofPieces_of_isIdle {piece : Text} (h : isIdle piece = true) : ofPieces [piece] = [] := by
  rcases ofPiece?_cases piece with ⟨rfl, -⟩ | ⟨rfl, -⟩ | ⟨hmoves, -⟩
  · rfl
  · rfl
  · cases h.symm.trans hmoves

theorem exists_ofPieces {piece : Text} (h : ¬isIdle piece = true) :
    ∃ c, ofPieces [piece] = [c] ∧ c ≠ .root := by
  rcases ofPiece?_cases piece with ⟨rfl, -⟩ | ⟨rfl, -⟩ | ⟨-, c, hc, hhere, hroot⟩
  · exact absurd rfl h
  · exact absurd rfl h
  · exact ⟨c, by simp [ofPieces, hc, hhere], hroot⟩

/-- Idle pieces at the end do not count. -/
theorem ofPieces_dropWhile (pieces : List Text) :
    ofPieces (pieces.dropWhile isIdle).reverse = ofPieces pieces.reverse := by
  induction pieces with
  | nil => rfl
  | cons piece before ih =>
    by_cases hidle : isIdle piece = true
    · rw [List.dropWhile_cons_of_pos hidle, ih, List.reverse_cons, ofPieces_append,
        ofPieces_of_isIdle hidle, List.append_nil]
    · rw [List.dropWhile_cons_of_neg hidle]

/-- All components but the last one, unless there is none or only the root. -/
def around? (components : List Component) : Option (List Component) :=
  if components = [] ∨ components = [.root] then none else some components.dropLast

theorem around?_concat (components : List Component) {last : Component} (h : last ≠ .root) :
    around? (components ++ [last]) = some components := by
  rw [around?, if_neg (by simp [List.append_eq_singleton_iff, h]), List.dropLast_concat]

end Component

namespace Path

variable {p : Path}

/-- The components are the start of the path and its steps without the single dots. -/
theorem components_eq (p : Path) :
    p.components = p.lead.components ++ p.steps.filter (· ≠ .here) := by
  unfold components body
  cases hlead : p.lead with
  | plain => rfl
  | root =>
    unfold lead at hlead
    split at hlead
    · next hpieces =>
      rw [steps, hpieces]
      rfl
    · cases hlead
    · cases hlead
  | here =>
    unfold lead at hlead
    split at hlead
    · cases hlead
    · next hpieces =>
      rw [steps, hpieces]
      rfl
    · cases hlead

theorem components_ne_nil (hne : p.text ≠ []) : p.components ≠ [] := by
  intro h
  rw [components_eq, List.append_eq_nil_iff, lead_eq] at h
  cases hroot : p.isRooted with
  | true =>
    rw [hroot, if_pos rfl] at h
    cases h.1
  | false =>
    -- the first step is a single dot and counts as the start, or it is kept as a step
    obtain ⟨step, steps, hsteps⟩ := List.exists_cons_of_ne_nil (steps_ne_nil hne hroot)
    rw [hroot, if_neg Bool.false_ne_true, hsteps, List.head?_cons] at h
    by_cases hhere : step = .here
    · rw [hhere, if_pos rfl] at h
      cases h.1
    · rw [List.filter_cons_of_pos (by simpa using hhere)] at h
      cases h.2

/-- Only the empty path has no components. -/
theorem components_eq_nil_iff : p.components = [] ↔ p.text = [] := by
  constructor
  · intro h
    exact Decidable.byContradiction fun hne => components_ne_nil hne h
  · intro h
    obtain ⟨t⟩ := p
    cases h
    rfl

/-- A component that is a name is one as it stands in a path. -/
theorem isName_of_mem_components {text : Text} (h : .name text ∈ p.components) : IsName text := by
  have hstep : .name text ∈ p.steps := by
    rw [components_eq, List.mem_append] at h
    rcases h with hlead | hstep
    · cases hl : p.lead <;> simp [hl, Lead.components] at hlead
    · exact (List.mem_filter.1 hstep).1
  obtain ⟨piece, hpiece, hname⟩ := List.mem_filterMap.1 hstep
  obtain rfl : piece = text := by
    unfold Component.ofPiece? at hname
    split at hname <;> cases hname
    rfl
  exact ⟨slash_notMem_of_mem_pieces hpiece, hname⟩

/-! ## Joined paths -/

/-- A path that starts with a name or two dots adds its components to those of the directory. -/
theorem components_join {base q : Path} (hq : q.lead = .plain) :
    (base.join q).components = base.components ++ q.components := by
  have hrooted : q.isRooted = false := by
    cases hroot : q.isRooted with
    | true =>
      rw [lead_eq, hroot] at hq
      cases hq
    | false => rfl
  by_cases hne : base.text = []
  · obtain ⟨t⟩ := base
    cases hne
    rw [empty_join]
    rfl
  · rw [components_eq, (above_join hrooted).lead hne, steps_join hrooted, List.filter_append,
      components_eq base, components_eq q, hq, List.append_assoc]
    rfl

theorem lead_of_isName {text : Text} (h : IsName text) : lead ⟨text⟩ = .plain := by
  rw [lead_eq, h.isRooted, h.steps]
  rfl

/-- A name adds itself to the components of a directory. -/
theorem components_join_name {base : Path} {text : Text} (h : IsName text) :
    (base.join ⟨text⟩).components = base.components ++ [.name text] := by
  have hlead := lead_of_isName h
  rw [components_join hlead, components_eq ⟨text⟩, hlead, h.steps]
  rfl

/-! ## Directories -/

theorem components_front {front : List Text} (h : front <+: p.body) :
    (p.lead.path front).components = p.lead.components ++ Component.ofPieces front := by
  rw [components, lead_front h]
  rcases body_front h with hbody | ⟨rfl, hbody⟩
  · rw [hbody, Component.ofPieces]
  · rw [hbody]
    rfl

/-- The directory around a path has all components but the last one.  Only the root and the empty
path have no directory around them. -/
theorem components_parent? (p : Path) :
    p.parent?.map components = Component.around? p.components := by
  -- the pieces are taken off from the end, as `Lead.parents` does
  have hgo : ∀ pieces : List Text, pieces.reverse <+: p.body →
      (p.lead.parents pieces).head?.map components =
        Component.around? (p.lead.components ++ Component.ofPieces pieces.reverse) := by
    intro pieces hpieces
    induction pieces with
    | nil => cases p.lead <;> rfl
    | cons piece before ih =>
      rw [List.reverse_cons] at hpieces ⊢
      have hbefore := (List.prefix_append _ _).trans hpieces
      rw [Lead.parents, Component.ofPieces_append]
      split
      · next hidle =>
        rw [Component.ofPieces_of_isIdle hidle, List.append_nil]
        exact ih hbefore
      · next hidle =>
        obtain ⟨c, hc, hroot⟩ := Component.exists_ofPieces hidle
        rw [hc, ← List.append_assoc, Component.around?_concat _ hroot, List.head?_cons,
          Option.map_some, components_front ((Lead.prefix_without_idle before).trans hbefore),
          Component.ofPieces_dropWhile]
  have hall := hgo p.body.reverse (by simp)
  rw [List.reverse_reverse] at hall
  exact hall

theorem exists_parent? {front : List Component} {last : Component}
    (h : p.components = front ++ [last]) (hlast : last ≠ .root) :
    ∃ parent, p.parent? = some parent ∧ parent.components = front := by
  have hparent := p.components_parent?
  rw [h, Component.around?_concat _ hlast] at hparent
  exact Option.map_eq_some_iff.1 hparent

end Path

end DeviceSheet
