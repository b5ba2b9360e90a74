import DeviceSheet.Project
import DeviceSheet.Proofs.Extraction
import DeviceSheet.Proofs.PlainExpansion

/-!
# What compiling a project gives

Compiling only looks at the disk.  A project compiles if three things hold: its main source can
be read, the source has a plain expansion within the limit, and all fragments called by the
expansion can be read (`Layout.compiles_iff`).  The calls of the devices are the calls of the
expansion.  Nothing else on the disk matters.
-/

namespace DeviceSheet

/-- A fresh expander gives the plain expansion of a file, if the file can be read and the height is
within the limit. -/
theorem Expander.resolveFile_eq_ok_iff {d : Disk} {base path : Path} {limit : UInt64} {r : Text} :
    ((job { base := base, limit := limit } (resolveFile path)).run d).value = .ok r ↔
      ∃ s, d.read path = .ok s ∧ ∃ height ≤ limit.toNat, Expands d base (scan s) r height := by
  cases hread : d.read path with
  | error cause =>
    rw [(looks_resolveFile_unreadable (x := { base := base, limit := limit }) hread).job.1]
    simp
  | ok s =>
    rw [(comesTo_resolveFile base limit hread).eq_ok_iff
      fun _ n hexpands => (OpenAbove.nil n).push hread hexpands]
    simp

/-- The calls of a sheet can be made into devices if their fragments can be read. -/
theorem exists_devices_iff {d : Disk} {deviceDir : Path} {cs : List DeviceCall} :
    (∃ devices, cs.mapM (DeviceCall.device d deviceDir) = .ok devices) ↔
      ∀ call ∈ cs, call.Readable d deviceDir := by
  constructor
  · rintro ⟨devices, h⟩ call hcall
    obtain ⟨device, hdevice⟩ := exists_ok_of_mapM_eq_ok h hcall
    exact DeviceCall.readable_of_device hdevice
  · intro h
    cases hdevices : cs.mapM (DeviceCall.device d deviceDir) with
    | ok devices => exact ⟨devices, rfl⟩
    | error failure =>
      obtain ⟨before, call, after, rfl, -, hcall⟩ := mapM_eq_error hdevices
      obtain ⟨cause, hcause, -⟩ := DeviceCall.device_eq_error.1 hcall
      obtain ⟨fragment, hfragment⟩ := h call (by simp)
      rw [hcause] at hfragment
      cases hfragment

/-- Each device has the call it was made from. -/
theorem map_call_of_devices {d : Disk} {deviceDir : Path} {cs : List DeviceCall}
    {devices : List Device} (h : cs.mapM (DeviceCall.device d deviceDir) = .ok devices) :
    devices.map Device.call = cs := by
  have hall := mapM_eq_ok_iff.1 h
  clear h
  induction hall with
  | nil => rfl
  | cons hdevice _ ih =>
    obtain ⟨fragment, -, rfl⟩ := DeviceCall.device_eq_ok.1 hdevice
    rw [List.map_cons, ih]
    rfl

/-- The devices of a sheet have valid calls. -/
theorem valid_of_devices {d : Disk} {deviceDir : Path} {sheet : Text} {devices : List Device}
    (h : (calls sheet).mapM (DeviceCall.device d deviceDir) = .ok devices) :
    ∀ device ∈ devices, device.call.Valid := by
  intro device hdevice
  have hcall := List.mem_map_of_mem (f := Device.call) hdevice
  rw [map_call_of_devices h] at hcall
  exact valid_of_mem_calls hcall

namespace Layout

variable {l : Layout} {d : Disk} {cs : List DeviceCall}

/-- The main source is expanded. -/
theorem looks_resolveSource (l : Layout) (d : Disk) :
    ∃ result, l.resolveSource.Looks d result ∧
      ∀ r, result = .ok r ↔ ∃ s, d.read l.source = .ok s ∧
        ∃ height ≤ l.maxImportDepth.toNat, Expands d l.baseDir (scan s) r height := by
  have hlooks : ∃ result, (l.expander.job (Expander.resolveFile l.source)).Looks d result := by
    cases hread : d.read l.source with
    | error cause => exact ⟨_, (Expander.looks_resolveFile_unreadable hread).job⟩
    | ok s =>
      obtain ⟨result, _, hlooks⟩ := Expander.looks_resolveFile (x := l.expander) hread
      exact ⟨result, hlooks.job⟩
  obtain ⟨result, hlooks⟩ := hlooks
  refine ⟨result, (Job.Looks.note _).bind fun _ => hlooks, fun r => ?_⟩
  rw [← hlooks.1]
  exact Expander.resolveFile_eq_ok_iff

/-- Compiling is expansion and extraction. -/
theorem looks_compile {result : Except Failure Text} (h : l.resolveSource.Looks d result) :
    l.compile.Looks d (result >>= fun sheet =>
      (calls sheet).mapM (DeviceCall.device d l.deviceDir) >>= fun devices =>
        .ok ⟨⟨devices, residual sheet⟩, Device.mediaBlocks devices⟩) := by
  refine h.bind fun sheet => ?_
  have hdevices : ∀ e : Extraction, Job.Looks
      (do Action.note (.emitted e.devices.length)
          pure { e with css := Device.mediaBlocks e.devices }) d
      (.ok { e with css := Device.mediaBlocks e.devices } : Except Failure Compiled) :=
    fun e => (Job.Looks.note _).bind fun _ => Job.Looks.pure _
  have hextract := (looks_extract d l.deviceDir sheet).bind hdevices
  cases hmap : (calls sheet).mapM (DeviceCall.device d l.deviceDir) with
  | error failure =>
    rw [hmap] at hextract
    exact hextract
  | ok devices =>
    rw [hmap] at hextract
    exact hextract

/-- The names of the devices are those of the calls in the expansion. -/
theorem looks_deviceNames {result : Except Failure Text} (h : l.resolveSource.Looks d result) :
    l.deviceNames.Looks d (result >>= DeviceSheet.deviceNames) :=
  h.bind fun _ => ⟨rfl, rfl⟩

/-- Neither product can be made if the source cannot be expanded. -/
theorem values_of_error {failure : Failure}
    (h : (l.resolveSource.run d).value = .error failure) :
    (l.compile.run d).value = .error failure ∧ (l.deviceNames.run d).value = .error failure := by
  obtain ⟨result, hsource, -⟩ := l.looks_resolveSource d
  cases hsource.1.symm.trans h
  exact ⟨(looks_compile hsource).1, (looks_deviceNames hsource).1⟩

theorem value_compile {sheet : Text} (h : (l.resolveSource.run d).value = .ok sheet) :
    (l.compile.run d).value = ((calls sheet).mapM (DeviceCall.device d l.deviceDir)).map
      fun devices => ⟨⟨devices, residual sheet⟩, Device.mediaBlocks devices⟩ := by
  obtain ⟨result, hsource, -⟩ := l.looks_resolveSource d
  cases hsource.1.symm.trans h
  refine (looks_compile hsource).1.trans ?_
  show ((calls sheet).mapM (DeviceCall.device d l.deviceDir) >>= _) = _
  cases (calls sheet).mapM (DeviceCall.device d l.deviceDir) <;> rfl

theorem value_deviceNames {sheet : Text} (h : (l.resolveSource.run d).value = .ok sheet) :
    (l.deviceNames.run d).value = DeviceSheet.deviceNames sheet := by
  obtain ⟨result, hsource, -⟩ := l.looks_resolveSource d
  cases hsource.1.symm.trans h
  exact (looks_deviceNames hsource).1

/-- What compiling gives is made from the one expansion of the source. -/
theorem compile_eq_ok_iff {c : Compiled} :
    (l.compile.run d).value = .ok c ↔ ∃ s r height, d.read l.source = .ok s ∧
      height ≤ l.maxImportDepth.toNat ∧ Expands d l.baseDir (scan s) r height ∧
      (calls r).mapM (DeviceCall.device d l.deviceDir) = .ok c.devices ∧
      c.residual = residual r ∧ c.css = Device.mediaBlocks c.devices := by
  obtain ⟨result, hlooks, hresult⟩ := l.looks_resolveSource d
  constructor
  · intro hc
    cases hsheet : (l.resolveSource.run d).value with
    | error failure => cases (values_of_error hsheet).1.symm.trans hc
    | ok r =>
      obtain ⟨s, hread, height, hle, hexpands⟩ := (hresult r).1 (hlooks.1.symm.trans hsheet)
      rw [value_compile hsheet] at hc
      obtain ⟨devices, hdevices, rfl⟩ := exists_ok_of_map_eq_ok hc
      exact ⟨s, r, height, hread, hle, hexpands, hdevices, rfl, rfl⟩
  · rintro ⟨s, r, height, hread, hle, hexpands, hdevices, hresidual, hcss⟩
    have hsheet := hlooks.1.trans ((hresult r).2 ⟨s, hread, height, hle, hexpands⟩)
    rw [value_compile hsheet, hdevices, Except.map, ← hresidual, ← hcss]

/-- The project compiles, to devices with these calls. -/
def Compiles (l : Layout) (d : Disk) (cs : List DeviceCall) : Prop :=
  ∃ c, (l.compile.run d).value = .ok c ∧ c.devices.map Device.call = cs

/-- A project compiles if its source expands and the fragments it calls can be read. -/
theorem compiles_iff :
    l.Compiles d cs ↔ ∃ s r height, d.read l.source = .ok s ∧
      height ≤ l.maxImportDepth.toNat ∧ Expands d l.baseDir (scan s) r height ∧
      calls r = cs ∧ ∀ call ∈ cs, call.Readable d l.deviceDir := by
  constructor
  · rintro ⟨c, hc, rfl⟩
    obtain ⟨s, r, height, hread, hle, hexpands, hdevices, -, -⟩ := compile_eq_ok_iff.1 hc
    have hcalls := map_call_of_devices hdevices
    refine ⟨s, r, height, hread, hle, hexpands, hcalls.symm, ?_⟩
    rw [hcalls]
    exact exists_devices_iff.1 ⟨c.devices, hdevices⟩
  · rintro ⟨s, r, height, hread, hle, hexpands, rfl, hreadable⟩
    obtain ⟨devices, hdevices⟩ := exists_devices_iff.2 hreadable
    exact ⟨⟨⟨devices, residual r⟩, Device.mediaBlocks devices⟩,
      compile_eq_ok_iff.2 ⟨s, r, height, hread, hle, hexpands, hdevices, rfl, rfl⟩,
      map_call_of_devices hdevices⟩

end Layout

end DeviceSheet
