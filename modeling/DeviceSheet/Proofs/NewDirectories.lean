import DeviceSheet.Proofs.AppendedCall
import DeviceSheet.Proofs.DiskGrowth
import DeviceSheet.Proofs.EnclosingPaths

/-!
# New directories are empty

A path that leads nowhere may lead somewhere once directories have been made.  On a disk that is
a tree there is only one way for this to happen.  A new directory has nothing in it, so whoever
walks into one finds nothing more, unless the path steps out of it again with two dots.

* If directories are made for a path without double dots, the path leads to a directory with
  nothing in it, or nothing was made (`Disk.makeDirs_eq_ok`).
* So no fragment comes to light by making the directory of the fragments, if the path of the
  directory has no double dots (`Layout.not_contains_of_makeDirs`).
-/

namespace DeviceSheet

variable {d d' : Disk} {p : Path}

/-! ## Trees -/

/-- Every entry stands in a directory, and the working directory is one. -/
structure Disk.IsTree (d : Disk) : Prop where
  home : d.get? d.home = some .dir
  parent : ∀ {place n entry}, d.get? (place ++ [n]) = some entry → d.get? place = some .dir

namespace Disk

/-- Whether a disk is a tree can be seen from its entries. -/
theorem IsTree.of_entries (home : d.get? d.home = some .dir)
    (parent : ∀ e ∈ d.entries, d.get? e.1.dropLast = some .dir) : d.IsTree where
  home := home
  parent {place n entry} hget := by
    have hparent := parent (place ++ [n], entry) (mem_entries_of_get? (by simp) hget)
    rw [List.dropLast_concat] at hparent
    exact hparent

/-- A walk in a tree that starts at a directory and ends at one ends where there is one. -/
theorem IsTree.get?_of_leads (htree : d.IsTree) {purpose : Purpose} {links : Nat} {place q : Place}
    {steps : List Component} {only : Bool} (hplace : d.get? place = some .dir)
    (h : Leads d purpose links place steps only ⟨q, some .dir⟩) : d.get? q = some .dir := by
  generalize hspot : Spot.mk q (some .dir) = spot at h
  induction h with
  | done =>
    cases hspot
    exact hplace
  | root _ ih => exact ih rfl hspot
  | here _ ih => exact ih hplace hspot
  | @up _ place _ _ _ _ ih =>
    refine ih ?_ hspot
    rcases List.eq_nil_or_concat place with rfl | ⟨front, n, rfl⟩
    · exact hplace
    · rw [List.concat_eq_append] at hplace ⊢
      rw [List.dropLast_concat]
      exact htree.parent hplace
  | free | file => cases hspot
  | dir _ _ hget _ ih => exact ih hget hspot
  | link _ _ _ _ ih =>
    refine ih ?_ hspot
    split
    · rfl
    · exact hplace

theorem IsTree.start (htree : d.IsTree) (p : Path) : d.get? (d.start p) = some .dir := by
  unfold Disk.start
  split
  · rfl
  · exact htree.home

theorem IsTree.makeDir (htree : d.IsTree) (h : d.makeDir p = .ok d') : d'.IsTree := by
  obtain ⟨q, n, -, -, -, hleads, hfree, rfl⟩ := makeDir_eq_ok h
  have hextends := Extends.insert hfree .dir
  refine ⟨hextends.get? htree.home, fun {place m entry} hget => ?_⟩
  rw [get?_insert d (by simp)] at hget
  split at hget
  · next heq =>
    obtain ⟨rfl, -⟩ := List.append_inj' heq rfl
    exact hextends.get? (htree.get?_of_leads (htree.start p) hleads)
  · exact hextends.get? (htree.parent hget)

theorem IsTree.makeDirsAlong (htree : d.IsTree) (around : List Path) :
    (d.makeDirsAlong around).2.IsTree :=
  makeDirsAlong_rel (R := fun d d' => d.IsTree → d'.IsTree) around (fun _ => id)
    (fun h h' htree => h' (h htree)) (fun _ h htree => htree.makeDir h) d htree

/-! ## Empty directories -/

/-- The path leads to a directory with nothing in it. -/
def LeadsToEmpty (d : Disk) (p : Path) : Prop :=
  ∃ q, d.locate .find p = .ok ⟨q, some .dir⟩ ∧ ∀ n, d.get? (q ++ [n]) = none

/-- A walk from an empty directory that finds something has not left it. -/
theorem eq_of_leads_of_empty {purpose : Purpose} {links : Nat} {q q' : Place}
    {steps : List Component} {only : Bool} {entry : Entry} (hempty : ∀ n, d.get? (q ++ [n]) = none)
    (hroot : .root ∉ steps) (hup : .up ∉ steps)
    (h : Leads d purpose links q steps only ⟨q', some entry⟩) : q' = q ∧ entry = .dir := by
  generalize hspot : Spot.mk q' (some entry) = spot at h
  induction h with
  | done =>
    cases hspot
    exact ⟨rfl, rfl⟩
  | root => exact absurd List.mem_cons_self hroot
  | here _ ih =>
    exact ih hempty (fun hmem => hroot (List.mem_cons_of_mem _ hmem))
      (fun hmem => hup (List.mem_cons_of_mem _ hmem)) hspot
  | up => exact absurd List.mem_cons_self hup
  | free => cases hspot
  | dir _ _ hget | file _ hget | link _ _ hget => cases (hempty _).symm.trans hget

/-- A directory around a path is reached from where the path is reached. -/
theorem start_of_above {outer : Path} (h : outer.Above p) (hrefused : refused? outer = none) :
    d.start outer = d.start p := by
  have hne : outer.text ≠ [] := by
    intro hempty
    simp [refused?, hempty] at hrefused
  simp only [Disk.start, h.isRooted hne]

/-- A directory that was just made has nothing in it. -/
theorem IsTree.leadsToEmpty_makeDir (htree : d.IsTree) (h : d.makeDir p = .ok d') :
    d'.LeadsToEmpty p := by
  obtain ⟨q, hfree, rfl, hlocate⟩ := locate_makeDir h
  refine ⟨q, hlocate, fun n => ?_⟩
  rw [get?_insert d (ne_nil_of_get? hfree (by simp)), if_neg (by simp)]
  cases hget : d.get? (q ++ [n]) with
  | none => rfl
  | some entry => cases hfree.symm.trans (htree.parent hget)

/-- What is found below an empty directory is the directory itself. -/
theorem LeadsToEmpty.below {outer : Path} (h : d.LeadsToEmpty outer) (habove : outer.Above p)
    (hup : .up ∉ p.steps) (hdir : d.hasDir p = true) : d.LeadsToEmpty p := by
  obtain ⟨q, hlocate, hempty⟩ := h
  obtain ⟨q', hlocate'⟩ := hasDir_eq_true_iff.1 hdir
  obtain ⟨more, hmore⟩ := habove.steps
  obtain ⟨-, hleads'⟩ := locate_eq_ok_iff.1 hlocate'
  obtain ⟨hrefused, hleads⟩ := locate_eq_ok_iff.1 hlocate
  rw [start_of_above habove hrefused] at hleads
  rw [← hmore] at hleads' hup
  obtain ⟨left, hrest⟩ := hleads'.after hleads
  have hroot := p.root_notMem_steps
  rw [← hmore, List.mem_append, not_or] at hroot
  rw [List.mem_append, not_or] at hup
  obtain ⟨rfl, -⟩ := eq_of_leads_of_empty hempty hroot.2 hup.2 hrest
  exact ⟨q', hlocate', hempty⟩

/-- Nothing stands in an empty directory. -/
theorem LeadsToEmpty.not_contains {outer : Path} {n : Text} (h : d.LeadsToEmpty outer)
    (habove : outer.Above p) (hsteps : p.steps = outer.steps ++ [.name n]) :
    d.contains p = false := by
  obtain ⟨q, hlocate, hempty⟩ := h
  obtain ⟨hrefused, hleads⟩ := locate_eq_ok_iff.1 hlocate
  rw [start_of_above habove hrefused] at hleads
  rw [contains, place?]
  split
  · next q' entry hlocate' =>
    obtain ⟨-, hleads'⟩ := locate_eq_ok_iff.1 hlocate'
    rw [hsteps] at hleads'
    obtain ⟨left, hrest⟩ := hleads'.after hleads
    generalize p.endsInSlash = only at hrest
    cases hrest with
    | dir _ _ hget | file _ hget | link _ _ hget => cases (hempty n).symm.trans hget
  · rfl

/-- Where directories were made on the way to a path without double dots, the path leads to one
with nothing in it. -/
theorem makeDirsAlong_eq_ok {around : List Path} (htree : d.IsTree)
    (habove : around.Pairwise fun inner outer => outer.Above inner)
    (hup : ∀ p ∈ around, .up ∉ p.steps) (h : d.makeDirsAlong around = (.ok (), d')) :
    d' = d ∨ ∃ p rest, around = p :: rest ∧ d'.LeadsToEmpty p := by
  induction around generalizing d' with
  | nil =>
    cases h
    exact .inl rfl
  | cons p around ih =>
    have hfresh : ∀ {d₁ d₂ : Disk}, d₁.IsTree → d₁.makeDir p = .ok d₂ →
        ∃ p' rest, p :: around = p' :: rest ∧ d₂.LeadsToEmpty p' :=
      fun htree hmake => ⟨p, around, rfl, htree.leadsToEmpty_makeDir hmake⟩
    rw [makeDirsAlong] at h
    split at h
    · cases h
      exact .inl rfl
    · split at h
      · next hmake =>
        cases h
        exact .inr (hfresh htree hmake)
      · next hmissing =>
        split at h
        · cases h
        · next d₁ hdone =>
          split at h
          · next hmake =>
            cases h
            have htree₁ := htree.makeDirsAlong around
            rw [hdone] at htree₁
            exact .inr (hfresh htree₁ hmake)
          · next hmake =>
            split at h
            · next hdir =>
              cases h
              rcases ih habove.of_cons (fun q hq => hup q (List.mem_cons_of_mem p hq)) hdone with
                rfl | ⟨outer, rest, rfl, hempty⟩
              · -- a directory that is there cannot be missing
                rw [makeDir_of_hasDir hdir] at hmissing
                cases hmissing
              · have houter := List.rel_of_pairwise_cons habove List.mem_cons_self
                exact .inr ⟨p, _, rfl, hempty.below houter (hup p List.mem_cons_self) hdir⟩
            · cases h
      · split at h
        · cases h
          exact .inl rfl
        · cases h

/-- Where directories are made for a path without double dots, the path leads to one with nothing
in it, or nothing was made. -/
theorem makeDirs_eq_ok (htree : d.IsTree) (hup : .up ∉ p.steps)
    (h : d.makeDirs p = (.ok (), d')) : d' = d ∨ d'.LeadsToEmpty p := by
  have habove := p.pairwise_parents
  have hups : ∀ q ∈ p :: p.parents, .up ∉ q.steps := by
    intro q hq hmem
    rcases List.mem_cons.1 hq with rfl | hq
    · exact hup hmem
    · exact hup ((List.rel_of_pairwise_cons habove hq).steps.mem hmem)
  rcases makeDirsAlong_eq_ok htree habove hups h with hsame | ⟨_, _, heq, hempty⟩
  · exact .inl hsame
  · cases heq
    exact .inr hempty

end Disk

/-! ## Fragments in a new directory -/

/-- A piece that is longer than two dots is a name. -/
theorem Component.ofPiece?_of_length {piece : Text} (h : 2 < piece.length) :
    ofPiece? piece = some (.name piece) := by
  unfold ofPiece?
  split
  · cases h
  · simp at h
  · simp at h
  · rfl

theorem slash_notMem_of_isDeviceName {name : Text} (hname : isDeviceName name = true) :
    '/' ∉ name := (isDeviceName_iff.1 hname).2.notMem rfl

/-- The file name of a fragment is a name. -/
theorem isName_fileName {name : Text} (hname : isDeviceName name = true) :
    IsName (name ++ ".dmcss".toList) where
  slash_notMem := by
    rw [List.mem_append, not_or]
    exact ⟨slash_notMem_of_isDeviceName hname, by decide⟩
  ofPiece? := by
    have hlength : 6 ≤ (name ++ ".dmcss".toList).length := by
      rw [List.length_append]
      exact Nat.le_add_left 6 name.length
    exact Component.ofPiece?_of_length (by omega)

/-- The last step to a fragment is its file name. -/
theorem steps_fragmentPath {deviceDir : Path} {name : Text} (hname : isDeviceName name = true) :
    (fragmentPath deviceDir name).steps =
      deviceDir.steps ++ [.name (name ++ ".dmcss".toList)] := by
  rw [fragmentPath, Path.steps_join (isName_fileName hname).isRooted, (isName_fileName hname).steps]

/-- Making the directory of the fragments brings no fragment to light, unless the path of the
directory has double dots. -/
theorem Layout.not_contains_of_makeDirs {l : Layout} {name : Text} (htree : d.IsTree)
    (hup : .up ∉ l.deviceDir.steps) (hname : isDeviceName name = true)
    (hfree : d.contains (fragmentPath l.deviceDir name) = false)
    (h : d.makeDirs l.deviceDir = (.ok (), d')) :
    d'.contains (fragmentPath l.deviceDir name) = false := by
  rcases Disk.makeDirs_eq_ok htree hup h with rfl | hempty
  · exact hfree
  · exact hempty.not_contains (Path.above_join (isName_fileName hname).isRooted)
      (steps_fragmentPath hname)

end DeviceSheet
