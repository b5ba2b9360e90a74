import DeviceSheet.Disk.Access

/-!
# Walks as derivations

A walk that comes to an end is told by its steps.  `Leads` has one rule for each kind of
step, and `Disk.walk_eq_ok_iff` says that the walks that succeed are exactly its
derivations.  Facts about walks are then proved by induction on a derivation.

* A walk can be cut in two.  The first part ends at a directory (`Leads.split`).
* A walk that is made to find a file can be made to write it (`Leads.create`).
* A disk *grows* if it keeps its directories and links, and keeps a file where there was
  one.  What a walk finds on a disk it finds at the same place on every disk that the first
  has grown to (`Leads.grow`).
-/

namespace DeviceSheet

/-- A last name that must be a directory cannot be created. -/
def Purpose.Allows (purpose : Purpose) (rest : List Component) (dirOnly : Bool) : Prop :=
  ¬ (rest = [] ∧ dirOnly = true ∧ purpose = .create)

theorem Purpose.allows_find {rest : List Component} {dirOnly : Bool} :
    Purpose.find.Allows rest dirOnly := by
  simp [Allows]

/-- A walk of the disk from a place along steps ends at a spot, with at most the given number of
links. -/
inductive Leads (d : Disk) (purpose : Purpose) :
    (links : Nat) → Place → List Component → (dirOnly : Bool) → Spot → Prop
  | done {links : Nat} {place : Place} {dirOnly : Bool} :
      Leads d purpose links place [] dirOnly ⟨place, some .dir⟩
  | root {links : Nat} {place : Place} {rest : List Component} {dirOnly : Bool} {spot : Spot}
      (hrest : Leads d purpose links [] rest dirOnly spot) :
      Leads d purpose links place (.root :: rest) dirOnly spot
  | here {links : Nat} {place : Place} {rest : List Component} {dirOnly : Bool} {spot : Spot}
      (hrest : Leads d purpose links place rest dirOnly spot) :
      Leads d purpose links place (.here :: rest) dirOnly spot
  | up {links : Nat} {place : Place} {rest : List Component} {dirOnly : Bool} {spot : Spot}
      (hrest : Leads d purpose links place.dropLast rest dirOnly spot) :
      Leads d purpose links place (.up :: rest) dirOnly spot
  /-- Only the last name may be missing. -/
  | free {links : Nat} {place : Place} {n : Text} {dirOnly : Bool}
      (hallows : purpose.Allows [] dirOnly) (hlength : n.byteLength ≤ Disk.maxNameLength)
      (hget : d.get? (place ++ [n]) = none) :
      Leads d purpose links place [.name n] dirOnly ⟨place ++ [n], none⟩
  | dir {links : Nat} {place : Place} {n : Text} {rest : List Component} {dirOnly : Bool}
      {spot : Spot}
      (hallows : purpose.Allows rest dirOnly) (hlength : n.byteLength ≤ Disk.maxNameLength)
      (hget : d.get? (place ++ [n]) = some .dir)
      (hrest : Leads d purpose links (place ++ [n]) rest dirOnly spot) :
      Leads d purpose links place (.name n :: rest) dirOnly spot
  /-- Only the last name may be a file. -/
  | file {links : Nat} {place : Place} {n : Text} {bytes : Bytes}
      (hlength : n.byteLength ≤ Disk.maxNameLength)
      (hget : d.get? (place ++ [n]) = some (.file bytes)) :
      Leads d purpose links place [.name n] false ⟨place ++ [n], some (.file bytes)⟩
  | link {links : Nat} {place : Place} {n : Text} {target : Path} {rest : List Component}
      {dirOnly : Bool} {spot : Spot}
      (hallows : purpose.Allows rest dirOnly) (hlength : n.byteLength ≤ Disk.maxNameLength)
      (hget : d.get? (place ++ [n]) = some (.link target))
      (hrest : Leads d purpose links (if target.isRooted then [] else place) (target.steps ++ rest)
        (dirOnly || (rest.isEmpty && target.endsInSlash)) spot) :
      Leads d purpose (links + 1) place (.name n :: rest) dirOnly spot

variable {d d' : Disk} {purpose : Purpose} {links : Nat} {place : Place} {steps : List Component}
  {dirOnly : Bool} {spot : Spot}

namespace Disk

/-- A walk follows a derivation if the walks behind its links do. -/
theorem walkWith_eq_ok {follow : Place → List Component → Bool → Except Fault Spot}
    (hfollow : ∀ place steps dirOnly spot, follow place steps dirOnly = .ok spot →
      ∃ less, links = less + 1 ∧ Leads d purpose less place steps dirOnly spot)
    (h : d.walkWith purpose follow dirOnly place steps = .ok spot) :
    Leads d purpose links place steps dirOnly spot := by
  induction steps generalizing place with
  | nil =>
    cases h
    exact .done
  | cons step rest ih =>
    cases step with
    | root => exact .root (ih h)
    | here => exact .here (ih h)
    | up => exact .up (ih h)
    | name n =>
      rw [walkWith] at h
      split at h
      · cases h
      · next hallows =>
        split at h
        · cases h
        · next hlength =>
          have hlength : n.byteLength ≤ maxNameLength := Nat.not_lt.1 hlength
          cases hget : d.get? (place ++ [n]) with
          | none =>
            simp only [hget] at h
            split at h
            · next hrest =>
              cases h
              subst hrest
              exact .free hallows hlength hget
            · cases h
          | some entry =>
            cases entry with
            | dir =>
              simp only [hget] at h
              exact .dir hallows hlength hget (ih h)
            | file bytes =>
              simp only [hget] at h
              split at h
              · next hlast =>
                cases h
                obtain ⟨rfl, hdir⟩ := hlast
                simp only [Bool.not_eq_true'] at hdir
                subst hdir
                exact .file hlength hget
              · cases h
            | link target =>
              simp only [hget] at h
              obtain ⟨less, rfl, hless⟩ := hfollow _ _ _ _ h
              exact .link hallows hlength hget hless

theorem leads_of_walk (h : d.walk purpose links place steps dirOnly = .ok spot) :
    Leads d purpose links place steps dirOnly spot := by
  induction links generalizing place steps dirOnly spot with
  | zero => exact walkWith_eq_ok (by simp) h
  | succ links ih =>
    refine walkWith_eq_ok ?_ h
    intro place steps dirOnly spot hfollow
    exact ⟨links, rfl, ih hfollow⟩

/-- The first step of a walk, whatever the number of links. -/
theorem walk_name {n : Text} {rest : List Component} (hallows : purpose.Allows rest dirOnly)
    (hlength : n.byteLength ≤ maxNameLength) :
    d.walk purpose links place (.name n :: rest) dirOnly =
      match d.get? (place ++ [n]) with
      | none => if rest = [] then .ok ⟨place ++ [n], none⟩ else .error .missing
      | some .dir => d.walk purpose links (place ++ [n]) rest dirOnly
      | some (.file bytes) =>
          if rest = [] ∧ !dirOnly then .ok ⟨place ++ [n], some (.file bytes)⟩
          else .error .notDirectory
      | some (.link target) =>
          match links with
          | 0 => .error .tooManyLinks
          | less + 1 =>
              d.walk purpose less (if target.isRooted then [] else place) (target.steps ++ rest)
                (dirOnly || (rest.isEmpty && target.endsInSlash)) := by
  have hlength := Nat.not_lt.2 hlength
  unfold Purpose.Allows at hallows
  rcases hget : d.get? (place ++ [n]) with _ | _ | _ | _ <;> cases links <;>
    simp only [walk, walkWith, if_neg hallows, if_neg hlength, hget]

theorem walk_of_leads (h : Leads d purpose links place steps dirOnly spot) :
    d.walk purpose links place steps dirOnly = .ok spot := by
  induction h with
  | @done links => cases links <;> rfl
  | @root links _ _ _ _ _ ih => cases links <;> exact ih
  | @here links _ _ _ _ _ ih => cases links <;> exact ih
  | @up links _ _ _ _ _ ih => cases links <;> exact ih
  | free hallows hlength hget => simp [walk_name hallows hlength, hget]
  | dir hallows hlength hget _ ih => simp [walk_name hallows hlength, hget, ih]
  | file hlength hget =>
    have hallows : purpose.Allows [] false := by simp [Purpose.Allows]
    simp [walk_name hallows hlength, hget]
  | link hallows hlength hget _ ih => simp [walk_name hallows hlength, hget, ih]

/-- The walks that succeed are the derivations. -/
theorem walk_eq_ok_iff :
    d.walk purpose links place steps dirOnly = .ok spot ↔
      Leads d purpose links place steps dirOnly spot :=
  ⟨leads_of_walk, walk_of_leads⟩

theorem locate_eq_ok_iff {p : Path} :
    d.locate purpose p = .ok spot ↔ refused? p = none ∧
      Leads d purpose maxLinks (d.start p) p.steps p.endsInSlash spot := by
  rw [← walk_eq_ok_iff, locate]
  cases refused? p <;> simp

end Disk

namespace Leads

/-! ## What stands at the end -/

/-- What stands at the end, if it is no directory, is what the disk has there. -/
theorem get?_eq (h : Leads d purpose links place steps dirOnly spot)
    (hspot : spot.entry ≠ some .dir) : d.get? spot.place = spot.entry := by
  induction h with
  | done => exact absurd rfl hspot
  | free _ _ hget | file _ hget => exact hget
  | root _ ih | here _ ih | up _ ih | dir _ _ _ _ ih | link _ _ _ _ ih => exact ih hspot

/-- Where a directory is asked for, nothing else is found. -/
theorem eq_dir {q : Place} {entry : Entry}
    (h : Leads d purpose links place steps true ⟨q, some entry⟩) : entry = .dir := by
  generalize hspot : Spot.mk q (some entry) = spot at h
  generalize honly : true = dirOnly at h
  induction h with
  | done =>
    cases hspot
    rfl
  | free => cases hspot
  | file => cases honly
  | root _ ih | here _ ih | up _ ih | dir _ _ _ _ ih => exact ih hspot honly
  | link _ _ _ _ ih => exact ih hspot (by simp [← honly])

theorem not_file {q : Place} {bytes : Bytes}
    (h : Leads d purpose links place steps true ⟨q, some (.file bytes)⟩) : False := by
  cases h.eq_dir

/-- A walk has one end. -/
theorem unique {spot' : Spot} (h : Leads d purpose links place steps dirOnly spot)
    (h' : Leads d purpose links place steps dirOnly spot') : spot = spot' :=
  Except.ok.inj ((Disk.walk_of_leads h).symm.trans (Disk.walk_of_leads h'))

/-- A directory is found whether or not one is asked for. -/
theorem any_only {q : Place} (h : Leads d .find links place steps dirOnly ⟨q, some .dir⟩)
    (only : Bool) : Leads d .find links place steps only ⟨q, some .dir⟩ := by
  generalize hspot : Spot.mk q (some .dir) = spot at h ⊢
  induction h generalizing only with
  | done => exact .done
  | root _ ih => exact .root (ih only hspot)
  | here _ ih => exact .here (ih only hspot)
  | up _ ih => exact .up (ih only hspot)
  | free | file => cases hspot
  | dir _ hlength hget _ ih => exact .dir Purpose.allows_find hlength hget (ih only hspot)
  | link _ hlength hget _ ih => exact .link Purpose.allows_find hlength hget (ih _ hspot)

/-! ## Two purposes -/

/-- What can be found in order to write it can be found. -/
theorem find (h : Leads d purpose links place steps dirOnly spot) :
    Leads d .find links place steps dirOnly spot := by
  induction h with
  | done => exact .done
  | root _ ih => exact .root ih
  | here _ ih => exact .here ih
  | up _ ih => exact .up ih
  | free _ hlength hget => exact .free Purpose.allows_find hlength hget
  | dir _ hlength hget _ ih => exact .dir Purpose.allows_find hlength hget ih
  | file hlength hget => exact .file hlength hget
  | link _ hlength hget _ ih => exact .link Purpose.allows_find hlength hget ih

/-- A file that can be found can be written. -/
theorem create {q : Place} {bytes : Bytes}
    (h : Leads d purpose links place steps dirOnly ⟨q, some (.file bytes)⟩) :
    Leads d .create links place steps dirOnly ⟨q, some (.file bytes)⟩ := by
  generalize hspot : Spot.mk q (some (.file bytes)) = spot at h ⊢
  induction h with
  | done | free => cases hspot
  | root _ ih => exact .root (ih hspot)
  | here _ ih => exact .here (ih hspot)
  | up _ ih => exact .up (ih hspot)
  | dir _ hlength hget hrest ih =>
    refine .dir ?_ hlength hget (ih hspot)
    intro ⟨hlast, honly, _⟩
    subst hlast honly hspot
    exact hrest.not_file
  | file hlength hget => exact .file hlength hget
  | link _ hlength hget hrest ih =>
    refine .link ?_ hlength hget (ih hspot)
    intro ⟨_, honly, _⟩
    subst honly hspot
    simp only [Bool.true_or] at hrest
    exact hrest.not_file

/-! ## Part of a walk -/

/-- A walk can be cut in two.  The first part ends at a directory, and the second goes on from
there. -/
theorem split {more : List Component} (hmore : more ≠ [])
    (h : Leads d purpose links place (steps ++ more) dirOnly spot) :
    ∃ q left, (∀ only, Leads d .find links place steps only ⟨q, some .dir⟩) ∧
      Leads d purpose left q more dirOnly spot := by
  generalize hall : steps ++ more = all at h
  -- An empty first part is cut off before the step; any other starts with the step.
  induction h generalizing steps with
  | done => simp [hmore] at hall
  | root hrest ih =>
    rcases steps with _ | ⟨step, steps⟩
    · subst hall
      exact ⟨_, _, fun _ => .done, .root hrest⟩
    · cases hall
      obtain ⟨q, left, hfirst, hsecond⟩ := ih rfl
      exact ⟨q, left, fun only => .root (hfirst only), hsecond⟩
  | here hrest ih =>
    rcases steps with _ | ⟨step, steps⟩
    · subst hall
      exact ⟨_, _, fun _ => .done, .here hrest⟩
    · cases hall
      obtain ⟨q, left, hfirst, hsecond⟩ := ih rfl
      exact ⟨q, left, fun only => .here (hfirst only), hsecond⟩
  | up hrest ih =>
    rcases steps with _ | ⟨step, steps⟩
    · subst hall
      exact ⟨_, _, fun _ => .done, .up hrest⟩
    · cases hall
      obtain ⟨q, left, hfirst, hsecond⟩ := ih rfl
      exact ⟨q, left, fun only => .up (hfirst only), hsecond⟩
  | free hallows hlength hget =>
    rcases steps with _ | ⟨step, steps⟩
    · subst hall
      exact ⟨_, 0, fun _ => .done, .free hallows hlength hget⟩
    · simp [hmore] at hall
  | dir hallows hlength hget hrest ih =>
    rcases steps with _ | ⟨step, steps⟩
    · subst hall
      exact ⟨_, _, fun _ => .done, .dir hallows hlength hget hrest⟩
    · cases hall
      obtain ⟨q, left, hfirst, hsecond⟩ := ih rfl
      exact ⟨q, left, fun only => .dir Purpose.allows_find hlength hget (hfirst only), hsecond⟩
  | file hlength hget =>
    rcases steps with _ | ⟨step, steps⟩
    · subst hall
      exact ⟨_, 0, fun _ => .done, .file hlength hget⟩
    · simp [hmore] at hall
  | link hallows hlength hget hrest ih =>
    rcases steps with _ | ⟨step, steps⟩
    · subst hall
      exact ⟨_, _, fun _ => .done, .link hallows hlength hget hrest⟩
    · cases hall
      obtain ⟨q, left, hfirst, hsecond⟩ := ih (List.append_assoc ..)
      have hrest : (steps.append more).isEmpty = false := by
        rw [List.isEmpty_eq_false_iff]
        exact List.append_ne_nil_of_right_ne_nil steps hmore
      rw [hrest, Bool.false_and, Bool.or_false] at hsecond
      exact ⟨q, left, fun only => .link Purpose.allows_find hlength hget (hfirst _), hsecond⟩

/-- A walk goes on from where its first part ends. -/
theorem after {q : Place} {more : List Component} {only : Bool}
    (h : Leads d .find links place (steps ++ more) dirOnly spot)
    (hfirst : Leads d .find links place steps only ⟨q, some .dir⟩) :
    ∃ left, Leads d .find left q more dirOnly spot := by
  by_cases hmore : more = []
  · subst hmore
    rw [List.append_nil] at h
    rw [h.unique (hfirst.any_only dirOnly)]
    exact ⟨0, .done⟩
  · obtain ⟨q', left, hfirst', hsecond⟩ := h.split hmore
    cases hfirst.unique (hfirst' only)
    exact ⟨left, hsecond⟩

/-- From a directory a walk goes on to the directories in it. -/
theorem append_name {q : Place} {n : Text} {only : Bool}
    (h : Leads d .find links place steps dirOnly ⟨q, some .dir⟩)
    (hlength : n.byteLength ≤ Disk.maxNameLength) (hget : d.get? (q ++ [n]) = some .dir) :
    Leads d .find links place (steps ++ [.name n]) only ⟨q ++ [n], some .dir⟩ := by
  generalize hspot : Spot.mk q (some .dir) = spot at h
  induction h generalizing only with
  | done =>
    cases hspot
    exact .dir Purpose.allows_find hlength hget .done
  | root _ ih => exact .root (ih hspot)
  | here _ ih => exact .here (ih hspot)
  | up _ ih => exact .up (ih hspot)
  | free | file => cases hspot
  | dir _ hlength' hget' _ ih => exact .dir Purpose.allows_find hlength' hget' (ih hspot)
  | link _ hlength' hget' _ ih =>
    rw [List.cons_append]
    refine .link Purpose.allows_find hlength' hget' ?_
    rw [← List.append_assoc]
    exact ih hspot

end Leads

/-! ## Walks on a disk that grows -/

namespace Disk

/-- The second disk has what the first has, but for the bytes of files. -/
structure Grows (d d' : Disk) : Prop where
  home : d'.home = d.home
  dir : ∀ {q}, d.get? q = some .dir → d'.get? q = some .dir
  link : ∀ {q target}, d.get? q = some (.link target) → d'.get? q = some (.link target)
  file : ∀ {q bytes}, d.get? q = some (.file bytes) → ∃ bytes', d'.get? q = some (.file bytes')

/-- The second disk has what the first has. -/
structure Extends (d d' : Disk) : Prop where
  home : d'.home = d.home
  get? : ∀ {q entry}, d.get? q = some entry → d'.get? q = some entry

theorem Grows.trans {d'' : Disk} (h : d.Grows d') (h' : d'.Grows d'') : d.Grows d'' where
  home := h'.home.trans h.home
  dir hget := h'.dir (h.dir hget)
  link hget := h'.link (h.link hget)
  file hget := by
    obtain ⟨_, hget'⟩ := h.file hget
    exact h'.file hget'

theorem Extends.refl (d : Disk) : d.Extends d := ⟨rfl, id⟩

theorem Extends.trans {d'' : Disk} (h : d.Extends d') (h' : d'.Extends d'') : d.Extends d'' :=
  ⟨h'.home.trans h.home, fun hget => h'.get? (h.get? hget)⟩

theorem Extends.grows (h : d.Extends d') : d.Grows d' where
  home := h.home
  dir := h.get?
  link := h.get?
  file hget := ⟨_, h.get? hget⟩

end Disk

namespace Leads

/-- What a walk finds is found at its place on a disk that has grown.  A directory is a directory
still, and a file is the one that stands there now. -/
theorem grow {q : Place} {entry entry' : Entry} (hgrows : d.Grows d')
    (hdir : entry = .dir → entry' = .dir)
    (hfile : ∀ bytes, entry = .file bytes → d'.get? q = some entry')
    (h : Leads d purpose links place steps dirOnly ⟨q, some entry⟩) :
    Leads d' purpose links place steps dirOnly ⟨q, some entry'⟩ := by
  generalize hspot : Spot.mk q (some entry) = spot at h
  induction h with
  | done =>
    cases hspot
    rw [hdir rfl]
    exact .done
  | root _ ih => exact .root (ih hspot)
  | here _ ih => exact .here (ih hspot)
  | up _ ih => exact .up (ih hspot)
  | free => cases hspot
  | dir hallows hlength hget _ ih => exact .dir hallows hlength (hgrows.dir hget) (ih hspot)
  | file hlength hget =>
    cases hspot
    obtain ⟨bytes', hget'⟩ := hgrows.file hget
    have hentry : some entry' = some (.file bytes') := (hfile _ rfl).symm.trans hget'
    cases hentry
    exact .file hlength hget'
  | link hallows hlength hget _ ih => exact .link hallows hlength (hgrows.link hget) (ih hspot)

theorem grow_dir {q : Place} (hgrows : d.Grows d')
    (h : Leads d purpose links place steps dirOnly ⟨q, some .dir⟩) :
    Leads d' purpose links place steps dirOnly ⟨q, some .dir⟩ :=
  h.grow hgrows (fun _ => rfl) (by simp)

theorem grow_file {q : Place} {bytes bytes' : Bytes} (hgrows : d.Grows d')
    (hget : d'.get? q = some (.file bytes'))
    (h : Leads d purpose links place steps dirOnly ⟨q, some (.file bytes)⟩) :
    Leads d' purpose links place steps dirOnly ⟨q, some (.file bytes')⟩ :=
  h.grow hgrows (by simp) (fun _ _ => hget)

/-- A free place that a walk for writing ends at is where it ends once a file is there. -/
theorem fill {q : Place} {bytes : Bytes} (hgrows : d.Grows d')
    (hget : d'.get? q = some (.file bytes))
    (h : Leads d .create links place steps dirOnly ⟨q, none⟩) :
    Leads d' .find links place steps dirOnly ⟨q, some (.file bytes)⟩ := by
  generalize hspot : Spot.mk q none = spot at h
  induction h with
  | done | file => cases hspot
  | root _ ih => exact .root (ih hspot)
  | here _ ih => exact .here (ih hspot)
  | up _ ih => exact .up (ih hspot)
  | @free _ _ _ only hallows hlength =>
    cases hspot
    -- A walk for writing never ends where a directory is asked for.
    have honly : only = false := by simpa [Purpose.Allows] using hallows
    subst honly
    exact .file hlength hget
  | dir _ hlength hget _ ih => exact .dir Purpose.allows_find hlength (hgrows.dir hget) (ih hspot)
  | link _ hlength hget _ ih =>
    exact .link Purpose.allows_find hlength (hgrows.link hget) (ih hspot)

end Leads

end DeviceSheet
