import DeviceSheet.Proofs.Compilation
import DeviceSheet.Proofs.Lookups
import DeviceSheet.Proofs.MediaBlocks
import DeviceSheet.Proofs.NewDirectories

/-!
# Fragments keep to themselves

Two disks are the same but for the text of one file, and a project is compiled on both.  If the
file is not part of the source and is the fragment of one device at most, only the body of that
device can tell the disks apart (`Layout.compile_isolates`).

* A walk does not look into files.  So every path leads to the same place on both disks, or fails
  alike (`Disk.DifferAt.place?_eq`), and reading differs only for paths to the file.
* Expansion asks both disks for the same things and gets the same answers.
* The devices are compared call by call, and the blocks of the stylesheet device by device.
-/

namespace DeviceSheet

variable {d d' : Disk} {q : Place}

/-! ## Disks that differ in one file -/

namespace Disk

/-- The disks have the same entries, but for the text of the file at one place. -/
structure DifferAt (d d' : Disk) (q : Place) : Prop where
  home : d'.home = d.home
  others : ∀ place, place ≠ q → d'.get? place = d.get? place
  text : ∃ t : Text, d.get? q = some (.file t.encode)
  text' : ∃ t : Text, d'.get? q = some (.file t.encode)

/-- A text that is written over another one makes a disk that differs there. -/
theorem differAt_insert {t : Text} (h : d.get? q = some (.file t.encode)) (t' : Text) :
    d.DifferAt (d.insert q (.file t'.encode)) q := by
  have hq : q ≠ [] := ne_nil_of_get? h (by simp)
  refine ⟨rfl, fun place hplace => ?_, ⟨t, h⟩, ⟨t', ?_⟩⟩
  · rw [get?_insert d hq, if_neg hplace]
  · rw [get?_insert d hq, if_pos rfl]

/-- The two results of a walk are the same, or both end at a text at the place. -/
def AlikeAt (q : Place) (result result' : Except Fault Spot) : Prop :=
  result' = result ∨ ∃ t t' : Text, result = .ok ⟨q, some (.file t.encode)⟩ ∧
    result' = .ok ⟨q, some (.file t'.encode)⟩

namespace DifferAt

/-- Walks are alike if those behind links are. -/
theorem walkWith (h : d.DifferAt d' q)
    {follow follow' : Place → List Component → Bool → Except Fault Spot}
    (hfollow : ∀ place steps dirOnly,
      AlikeAt q (follow place steps dirOnly) (follow' place steps dirOnly))
    (dirOnly : Bool) (place : Place) (steps : List Component) :
    AlikeAt q (d.walkWith .find follow dirOnly place steps)
      (d'.walkWith .find follow' dirOnly place steps) := by
  induction steps generalizing place with
  | nil => exact .inl rfl
  | cons step rest ih =>
    cases step with
    | root | here | up => exact ih _
    | name n =>
      rw [Disk.walkWith, Disk.walkWith]
      split
      · exact .inl rfl
      · split
        · exact .inl rfl
        · by_cases hq : place ++ [n] = q
          · obtain ⟨t, ht⟩ := h.text
            obtain ⟨t', ht'⟩ := h.text'
            rw [hq, ht, ht']
            dsimp only
            split
            · exact .inr ⟨t, t', rfl, rfl⟩
            · exact .inl rfl
          · rw [h.others _ hq]
            cases d.get? (place ++ [n]) with
            | none => exact .inl rfl
            | some entry =>
              cases entry with
              | dir => exact ih _
              | file bytes => exact .inl rfl
              | link target => exact hfollow _ _ _

theorem walk (h : d.DifferAt d' q) (links : Nat) (place : Place) (steps : List Component)
    (dirOnly : Bool) :
    AlikeAt q (d.walk .find links place steps dirOnly)
      (d'.walk .find links place steps dirOnly) := by
  induction links generalizing place steps dirOnly with
  | zero => exact h.walkWith (fun _ _ _ => .inl rfl) dirOnly place steps
  | succ links ih => exact h.walkWith ih dirOnly place steps

theorem locate (h : d.DifferAt d' q) (p : Path) :
    AlikeAt q (d.locate .find p) (d'.locate .find p) := by
  unfold Disk.locate
  split
  · exact .inl rfl
  · rw [Disk.start, Disk.start, h.home]
    exact h.walk _ _ _ _

/-- Every path leads to the same place on both disks. -/
theorem place?_eq (h : d.DifferAt d' q) (p : Path) : d'.place? p = d.place? p := by
  rcases h.locate p with heq | ⟨t, t', hfile, hfile'⟩
  · rw [Disk.place?, heq, Disk.place?]
  · rw [Disk.place?, hfile', Disk.place?, hfile]

/-- A path is read alike, or leads to the file and can be read on both disks. -/
theorem read_cases (h : d.DifferAt d' q) (p : Path) :
    d'.read p = d.read p ∨
      d.place? p = some q ∧ ∃ t t', d.read p = .ok t ∧ d'.read p = .ok t' := by
  rcases h.locate p with heq | ⟨t, t', hfile, hfile'⟩
  · exact .inl (by rw [Disk.read, heq, Disk.read])
  · have hholds : d.Holds p q t := hfile
    exact .inr ⟨hholds.place?, t, t', read_eq_ok_iff.2 ⟨q, hfile⟩, read_eq_ok_iff.2 ⟨q, hfile'⟩⟩

theorem read_eq (h : d.DifferAt d' q) {p : Path} (hp : d.place? p ≠ some q) :
    d'.read p = d.read p := by
  rcases h.read_cases p with heq | ⟨hplace, -⟩
  · exact heq
  · exact absurd hplace hp

end DifferAt

end Disk

/-! ## Expansion -/

/-- A source that the file is no part of expands alike on both disks. -/
theorem Layout.resolveSource_eq {l : Layout} (h : d.DifferAt d' q)
    (hsource : ∀ p, .read p ∈ (l.resolveSource.run d).requests → d.place? p ≠ some q) :
    (l.resolveSource.run d').value = (l.resolveSource.run d).value := by
  have hrun : l.resolveSource.run d' =
      ⟨(l.resolveSource.run d).value, d', (l.resolveSource.run d).requests⟩ := by
    refine Action.run_of_answers fun r hr => ?_
    obtain ⟨hlook, -⟩ := l.consults_resolveSource r hr
    refine ⟨hlook, ?_⟩
    cases r with
    | read p => exact h.read_eq (hsource p hr)
    | locate p => exact h.place?_eq p
    | contains p => exact congrArg Option.isSome (h.place?_eq p)
    | note => rfl
    | makeDirs | write | append => cases hlook
  rw [hrun]

/-! ## Devices -/

/-- The device is the same, or has another body and the given name. -/
structure Device.SameBut (name : Text) (device device' : Device) : Prop where
  call : device'.call = device.call
  others : device.call.name ≠ name → device' = device

/-- A call fails alike on both disks, or comes to devices that differ in the body at most. -/
theorem DeviceCall.device_alike {name : Text} {deviceDir : Path} (h : d.DifferAt d' q)
    (hothers : ∀ other, isDeviceName other = true → other ≠ name →
      d.place? (fragmentPath deviceDir other) ≠ some q)
    {call : DeviceCall} (hvalid : call.Valid) :
    (∃ failure, call.device d deviceDir = .error failure ∧
      call.device d' deviceDir = .error failure) ∨
    ∃ device device', call.device d deviceDir = .ok device ∧
      call.device d' deviceDir = .ok device' ∧ device.SameBut name device' := by
  rcases h.read_cases (fragmentPath deviceDir call.name) with heq | ⟨hplace, t, t', ht, ht'⟩
  · have hdevice : call.device d' deviceDir = call.device d deviceDir := by
      rw [DeviceCall.device, DeviceCall.device, heq]
    rw [hdevice]
    cases call.device d deviceDir with
    | error failure => exact .inl ⟨failure, rfl, rfl⟩
    | ok device => exact .inr ⟨device, device, rfl, rfl, rfl, fun _ => rfl⟩
  · refine .inr ⟨_, _, device_eq_ok.2 ⟨t, ht, rfl⟩, device_eq_ok.2 ⟨t', ht', rfl⟩, rfl, ?_⟩
    intro hname
    exact absurd hplace (hothers _ hvalid.isDeviceName hname)

/-! ## Fragments of two names -/

/-- The path of a fragment leads to a file of that name, or there is a link of that name. -/
theorem place?_fragmentPath {deviceDir : Path} {name : Text} (hname : isDeviceName name = true)
    (h : d.place? (fragmentPath deviceDir name) = some q) :
    ∃ place, q = place ++ [name ++ ".dmcss".toList] ∨
      ∃ target, d.get? (place ++ [name ++ ".dmcss".toList]) = some (.link target) := by
  unfold Disk.place? at h
  split at h
  · next entry hlocate =>
    cases h
    have hleads := (Disk.locate_eq_ok_iff.1 hlocate).2
    rw [steps_fragmentPath hname] at hleads
    obtain ⟨place, _, -, hlast⟩ := hleads.split (by simp)
    refine ⟨place, ?_⟩
    generalize (fragmentPath deviceDir name).endsInSlash = dirOnly at hlast
    cases hlast with
    | file => exact .inl rfl
    | dir _ _ _ hend =>
      cases hend
      exact .inl rfl
    | link _ _ hget _ => exact .inr ⟨_, hget⟩
  · cases h

/-- On a disk without links the fragments of two devices are two files. -/
theorem name_eq_of_place? {deviceDir : Path} {name other : Text}
    (hlinks : ∀ place target, d.get? place ≠ some (.link target))
    (hname : isDeviceName name = true) (hother : isDeviceName other = true)
    (h : d.place? (fragmentPath deviceDir name) = some q)
    (h' : d.place? (fragmentPath deviceDir other) = some q) : other = name := by
  obtain ⟨place, rfl | ⟨target, hlink⟩⟩ := place?_fragmentPath hname h
  · obtain ⟨place', heq | ⟨target, hlink⟩⟩ := place?_fragmentPath hother h'
    · have hlast : name ++ ".dmcss".toList = other ++ ".dmcss".toList :=
        List.singleton_inj.1 (List.append_inj_right' heq rfl)
      exact (List.append_cancel_right hlast).symm
    · exact absurd hlink (hlinks _ _)
  · exact absurd hlink (hlinks _ _)

/-! ## The whole project -/

/-- What compiling gives is the same, but for the bodies of the devices of one name.  The stylesheet
has the same blocks for all other devices, at the same positions. -/
structure Compiled.SameBut (name : Text) (c c' : Compiled) : Prop where
  residual : c'.residual = c.residual
  calls : c'.devices.map Device.call = c.devices.map Device.call
  others : ∀ (i : Nat) (device : Device), c.devices[i]? = some device → device.call.name ≠ name →
    c'.devices[i]? = some device ∧ ∃ block, (Text.paragraphs c.css)[i]? = some block ∧
      (Text.paragraphs c'.css)[i]? = some block

namespace Device

variable {name : Text} {devices devices' : List Device}

theorem map_call_of_sameBut (h : List.Forall₂ (SameBut name) devices devices') :
    devices'.map call = devices.map call := by
  induction h with
  | nil => rfl
  | cons hfirst _ ih => rw [List.map_cons, List.map_cons, hfirst.call, ih]

theorem getElem?_of_sameBut (h : List.Forall₂ (SameBut name) devices devices') {i : Nat}
    {device : Device} (hi : devices[i]? = some device) (hname : device.call.name ≠ name) :
    devices'[i]? = some device := by
  induction h generalizing i with
  | nil => simp at hi
  | cons hfirst _ ih =>
    cases i with
    | zero =>
      rw [List.getElem?_cons_zero, Option.some.injEq] at hi ⊢
      subst hi
      exact hfirst.others hname
    | succ i => exact ih hi

end Device

/-- Devices that differ in the bodies of one name make stylesheets that differ in their blocks. -/
theorem Compiled.sameBut_of_devices {name : Text} {devices devices' : List Device}
    (hvalid : ∀ device ∈ devices, device.call.Valid)
    (hvalid' : ∀ device ∈ devices', device.call.Valid)
    (h : List.Forall₂ (Device.SameBut name) devices devices') (residual : Text) :
    SameBut name ⟨⟨devices, residual⟩, Device.mediaBlocks devices⟩
      ⟨⟨devices', residual⟩, Device.mediaBlocks devices'⟩ where
  residual := rfl
  calls := Device.map_call_of_sameBut h
  others i device hi hname := by
    have hi' := Device.getElem?_of_sameBut h hi hname
    refine ⟨hi', device.mediaLines, ?_, ?_⟩
    · rw [Device.paragraphs_mediaBlocks hvalid, List.getElem?_map, hi, Option.map_some]
    · rw [Device.paragraphs_mediaBlocks hvalid', List.getElem?_map, hi', Option.map_some]

/-- A project is compiled on two disks that differ in the text of one file.  If the file is not read
in order to expand the source and is the fragment of no other device than the named one, only the
bodies of that device can differ. -/
theorem Layout.compile_isolates (l : Layout) (d d' : Disk) (q : Place) (name : Text)
    (hdiffer : d.DifferAt d' q)
    (hsource : ∀ p, .read p ∈ (l.resolveSource.run d).requests → d.place? p ≠ some q)
    (hothers : ∀ other, isDeviceName other = true → other ≠ name →
      d.place? (fragmentPath l.deviceDir other) ≠ some q) :
    (∃ failure, (l.compile.run d).value = .error failure ∧
      (l.compile.run d').value = .error failure) ∨
    ∃ c c', (l.compile.run d).value = .ok c ∧ (l.compile.run d').value = .ok c' ∧
      c.SameBut name c' := by
  have hexpand := resolveSource_eq hdiffer hsource
  cases hsheet : (l.resolveSource.run d).value with
  | error failure =>
    exact .inl ⟨failure, (values_of_error hsheet).1, (values_of_error (hexpand.trans hsheet)).1⟩
  | ok sheet =>
    rw [value_compile hsheet, value_compile (hexpand.trans hsheet)]
    rcases mapM_alike fun call hcall =>
        DeviceCall.device_alike hdiffer hothers (valid_of_mem_calls hcall) with
      ⟨failure, hdevices, hdevices'⟩ | ⟨devices, devices', hdevices, hdevices', halike⟩
    · rw [hdevices, hdevices']
      exact .inl ⟨failure, rfl, rfl⟩
    · rw [hdevices, hdevices']
      exact .inr ⟨_, _, rfl, rfl, Compiled.sameBut_of_devices (valid_of_devices hdevices)
        (valid_of_devices hdevices') halike (residual sheet)⟩

/-- A device is called twice, with another one between.  Its fragment has an import of the source, a
device call, empty lines and braces that it does not open.  Then the fragment is emptied. -/
theorem Layout.compile_isolates_twice :
    let l : Layout := ⟨⟨"m".toList⟩, ⟨"d".toList⟩, ⟨[]⟩, ⟨[]⟩, 4⟩
    let q : Place := [['d'], "a.dmcss".toList]
    let t : Text :=
      "@import \"m\";\n\n\x7d\x7d\n\n$$device(name: \"c\", width: 1, height: 2)".toList
    let d : Disk := ⟨[
      ([['m']], .file (Text.encode ("$$device(name: \"a\", width: 1, height: 2)x".toList ++
        "$$device(name: \"b\", width: 3, height: 4)".toList ++
        "$$device(name: \"a\", width: 5, height: 6)".toList))),
      ([['d']], .dir),
      ([['d'], "b.dmcss".toList], .file (Text.encode ['r'])),
      (q, .file t.encode)], []⟩
    let d' : Disk := d.insert q (.file (Text.encode []))
    let compiled (body : Text) : Compiled :=
      let devices : List Device := [⟨⟨['a'], ['1'], ['2']⟩, body⟩, ⟨⟨['b'], ['3'], ['4']⟩, ['r']⟩,
        ⟨⟨['a'], ['5'], ['6']⟩, body⟩]
      ⟨⟨devices, ['x']⟩, Device.mediaBlocks devices⟩
    (d.DifferAt d' q ∧ d.place? (fragmentPath l.deviceDir ['a']) = some q ∧
      (l.compile.run d).value = .ok (compiled t) ∧
      (l.compile.run d').value = .ok (compiled [])) ∧
    (compiled t).SameBut ['a'] (compiled []) := by
  intro l q t d d' compiled
  have hdiffer : d.DifferAt d' q := Disk.differAt_insert rfl []
  have hruns : d.place? (fragmentPath l.deviceDir ['a']) = some q ∧
      (l.compile.run d).value = .ok (compiled t) ∧
      (l.compile.run d').value = .ok (compiled []) := by decide +kernel
  obtain ⟨hplace, hcompile, hcompile'⟩ := hruns
  refine ⟨⟨hdiffer, hplace, hcompile, hcompile'⟩, ?_⟩
  have hsource : ∀ p, .read p ∈ (l.resolveSource.run d).requests → d.place? p ≠ some q := by
    intro p hp
    have hreads : ((l.resolveSource.run d).requests.all fun r => match r with
      | .read p => d.place? p ≠ some q
      | _ => true) = true := by decide +kernel
    exact of_decide_eq_true (List.all_eq_true.1 hreads _ hp)
  have hothers : ∀ other, isDeviceName other = true → other ≠ ['a'] →
      d.place? (fragmentPath l.deviceDir other) ≠ some q := by
    intro other hother hne hplace'
    refine hne (name_eq_of_place? (fun place target hlink => ?_) rfl hother hplace hplace')
    have hmem := Disk.mem_entries_of_get? (Disk.ne_nil_of_get? hlink (by simp)) hlink
    simp [d] at hmem
  rcases compile_isolates l d d' q ['a'] hdiffer hsource hothers with
    ⟨failure, hfail, -⟩ | ⟨c, c', hc, hc', hsame⟩
  · cases hcompile.symm.trans hfail
  · cases hcompile.symm.trans hc
    cases hcompile'.symm.trans hc'
    exact hsame

end DeviceSheet
