import DeviceSheet.Proofs.RegistrationEffects
import DeviceSheet.Proofs.RegistrationRuns

/-!
# A device is registered once

All that keeps a device from being registered again is that its fragment is found.  It is found by
its path, and where a path leads depends on the whole disk.  There may be links on the way, or steps
out of a directory that the registration had to make, and the source may be the fragment itself.

* No registration takes away what was there, whether it succeeds or not (`Layout.Registers.grows`).
  So a path that leads to a file leads to the same place ever after.
* In a registration that succeeds there is a moment when the path leads to the new fragment
  (`Layout.Registers.holds`).
* Every later attempt is made on a disk that has grown from there
  (`Layout.registers_of_mem_attempts`).  If it is made for the same name, it is refused
  (`Layout.registered_once`).
-/

namespace DeviceSheet

namespace Layout

variable {l : Layout} {d d' : Disk}

/-! ## One registration -/

section

variable {name width height : Text} {result : Except Failure Registration}

/-- A registration takes nothing away. -/
theorem Registers.grows (h : l.Registers name width height d result d') : d.Grows d' := by
  cases h with
  | invalid | taken => exact (Disk.Extends.refl d).grows
  | noDirectory _ _ hmade | noFragment _ _ hmade _ =>
    exact (Disk.keeps_makeDirs hmade).extends.grows
  | noLine _ _ hmade hwrite hputs =>
    have hwritten := (Disk.keeps_makeDirs hmade).extends.grows.trans (Disk.grows_update hwrite)
    exact hwritten.trans hputs.of_error.2.extends.grows
  | done _ _ hmade hwrite hputs =>
    have hwritten := (Disk.keeps_makeDirs hmade).extends.grows.trans (Disk.grows_update hwrite)
    obtain ⟨_, hkeeps, hupdate⟩ := hputs.of_ok
    exact hwritten.trans (hkeeps.extends.grows.trans (Disk.grows_update hupdate))

/-- Before it is done, a registration comes to a disk on which the fragment is found. -/
theorem Registers.holds {registration : Registration}
    (h : l.Registers name width height d (.ok registration) d') :
    isDeviceName name = true ∧ ∃ (q : Place) (d₁ : Disk),
      d₁.Holds (fragmentPath l.deviceDir name) q (fragmentStub name) ∧ d₁.Grows d' := by
  cases h with
  | done hcall hfree hmade hwrite hputs =>
    obtain ⟨hname, -⟩ := DeviceCall.checked_eq_ok_iff.1 hcall
    obtain ⟨q, hholds, -, -⟩ := exists_place_of_write hname hfree hmade hwrite
    obtain ⟨_, hkeeps, hupdate⟩ := hputs.of_ok
    exact ⟨hname, q, _, hholds, hkeeps.extends.grows.trans (Disk.grows_update hupdate)⟩

/-- A device with a fragment is not registered, and the disk stays as it is.  If the dimensions are
accepted, it is the fragment that is reported. -/
theorem Registers.refused (h : l.Registers name width height d result d')
    (hcontains : d.contains (fragmentPath l.deviceDir name) = true) :
    (∃ failure, result = .error failure) ∧ d' = d ∧
      (isDeviceName name = true → IsDimension width → IsDimension height →
        result = .error (.fragmentExists (fragmentPath l.deviceDir name))) := by
  cases hchecked : DeviceCall.checked name width height with
  | ok call =>
    obtain ⟨rfl, rfl⟩ := h.of_contains hchecked hcontains
    exact ⟨⟨_, rfl⟩, rfl, fun _ _ _ => rfl⟩
  | error failure =>
    cases h with
    | invalid hfailure =>
      refine ⟨⟨_, rfl⟩, rfl, fun hname hwidth hheight => ?_⟩
      have hcall : DeviceCall.checked name width height =
          .ok ⟨name, withUnit width.trim, withUnit height.trim⟩ :=
        DeviceCall.checked_eq_ok_iff.2 ⟨hname, rfl, dimension_eq_ok_iff.2 ⟨hwidth, rfl⟩,
          dimension_eq_ok_iff.2 ⟨hheight, rfl⟩⟩
      cases hcall.symm.trans hchecked
    | taken hcall | noDirectory hcall | noFragment hcall | noLine hcall | done hcall =>
      cases hcall.symm.trans hchecked

end

end Layout

/-! ## Many registrations -/

/-- An attempt to register a device, with the disk before and after it and what it came to. -/
structure Attempt where
  draft : Draft
  before : Disk
  result : Except Failure Registration
  after : Disk

/-- If the first attempt succeeds and the second is for the same name, the second fails and leaves
the disk as it is.  If its dimensions are accepted, it fails because of the fragment. -/
def Attempt.RulesOut (l : Layout) (first again : Attempt) : Prop :=
  (∃ registration, first.result = .ok registration) → again.draft.name = first.draft.name →
    (∃ failure, again.result = .error failure) ∧ again.after = again.before ∧
      (IsDimension again.draft.width → IsDimension again.draft.height →
        again.result = .error (.fragmentExists (fragmentPath l.deviceDir again.draft.name)))

namespace Layout

variable {l : Layout} {d : Disk}

/-- The attempts to register devices one after the other. -/
def attempts (l : Layout) (d : Disk) : List Draft → List Attempt
  | [] => []
  | draft :: drafts =>
      let outcome := (l.register draft.name draft.width draft.height).run d
      ⟨draft, d, outcome.value, outcome.disk⟩ :: l.attempts outcome.disk drafts

/-- The attempts come to what comes of registering the devices. -/
theorem value_registerAll (l : Layout) (d : Disk) (drafts : List Draft) :
    ((l.registerAll drafts).run d).value =
      (l.attempts d drafts).map fun a => (a.draft, a.result) := by
  induction drafts generalizing d with
  | nil => rfl
  | cons draft drafts ih =>
    rw [(run_registerAll_cons l draft drafts d).1, ih, attempts, List.map_cons]

/-- An attempt is a registration on the disk before it. -/
theorem registers_of_mem_attempts {drafts : List Draft} {a : Attempt}
    (h : a ∈ l.attempts d drafts) :
    l.Registers a.draft.name a.draft.width a.draft.height a.before a.result a.after ∧
      d.Grows a.before := by
  induction drafts generalizing d with
  | nil => cases h
  | cons draft drafts ih =>
    rw [attempts, List.mem_cons] at h
    rcases h with rfl | h
    · exact ⟨registers ⟨rfl, rfl⟩, (Disk.Extends.refl d).grows⟩
    · obtain ⟨hregisters, hgrows⟩ := ih h
      have hfirst : l.Registers draft.name draft.width draft.height d _ _ := registers ⟨rfl, rfl⟩
      exact ⟨hregisters, hfirst.grows.trans hgrows⟩

/-- An attempt that succeeds rules out all later ones for the same name. -/
theorem pairwise_attempts (l : Layout) (d : Disk) (drafts : List Draft) :
    (l.attempts d drafts).Pairwise (Attempt.RulesOut l) := by
  induction drafts generalizing d with
  | nil => exact .nil
  | cons draft drafts ih =>
    rw [attempts]
    refine .cons (fun again hagain => ?_) (ih _)
    rintro ⟨registration, hregistration⟩ hname
    have hfirst := registers (l := l) ⟨hregistration, rfl⟩
    obtain ⟨hvalid, q, d₁, hholds, hgrows⟩ := hfirst.holds
    obtain ⟨hagain, hgrows'⟩ := registers_of_mem_attempts hagain
    -- the path of the fragment leads where it led when the fragment was written
    have hplace := hholds.place?_of_grows (hgrows.trans hgrows')
    rw [← hname] at hplace hvalid
    obtain ⟨hfails, hsame, hexists⟩ := hagain.refused (by rw [Disk.contains, hplace]; rfl)
    exact ⟨hfails, hsame, hexists hvalid⟩

/-- Whatever devices one tries to register and whatever fails, no name is registered twice.  After
an attempt that succeeds, all attempts for its name fail and leave the disk as it is. -/
theorem registered_once (l : Layout) (d : Disk) (drafts : List Draft) :
    ((registered ((l.registerAll drafts).run d).value).map Draft.name).Nodup ∧
    ((l.registerAll drafts).run d).value =
      (l.attempts d drafts).map (fun a => (a.draft, a.result)) ∧
    (l.attempts d drafts).Pairwise (Attempt.RulesOut l) := by
  refine ⟨?_, value_registerAll l d drafts, pairwise_attempts l d drafts⟩
  rw [value_registerAll, registered, List.filterMap_map, List.map_filterMap]
  refine List.pairwise_filterMap.2 ((pairwise_attempts l d drafts).imp ?_)
  intro first again hrules name hfirst name' hagain hsame
  simp only [Function.comp_apply, Option.map_map, Option.map_eq_some_iff] at hfirst hagain
  obtain ⟨registration, hfirst, rfl⟩ := hfirst
  obtain ⟨registration', hagain, rfl⟩ := hagain
  have hdone : ∃ registration, first.result = .ok registration := by
    cases hresult : first.result with
    | ok registration => exact ⟨registration, rfl⟩
    | error failure =>
      rw [hresult] at hfirst
      cases hfirst
  obtain ⟨⟨failure, hfails⟩, -⟩ := hrules hdone hsame.symm
  rw [hfails] at hagain
  cases hagain

-- The fragment of the first device is a link to nothing, its directory is behind one that is
-- missing, and the source is the same link.
example :
    let l : Layout := ⟨⟨"d/tv.dmcss".toList⟩, ⟨"n/../d".toList⟩, ⟨[]⟩, ⟨[]⟩, 4⟩
    let d : Disk := ⟨[
      ([['d']], .dir),
      ([['d'], "tv.dmcss".toList], .link ⟨"../t".toList⟩)], []⟩
    let tv : Draft := ⟨"tv".toList, "1".toList, "2".toList⟩
    let run := (l.registerAll [tv, ⟨"pad".toList, "1".toList, "2".toList⟩,
      ⟨"tv".toList, "3 4".toList, "5".toList⟩, tv]).run d
    registered run.value = [tv, ⟨"pad".toList, "1".toList, "2".toList⟩] ∧
      run.value.getLast?.map Prod.snd =
        some (.error (.fragmentExists ⟨"n/../d/tv.dmcss".toList⟩)) := by
  decide +kernel

end Layout

end DeviceSheet
