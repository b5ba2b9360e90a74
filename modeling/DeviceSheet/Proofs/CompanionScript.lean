import DeviceSheet.Proofs.Deliveries
import DeviceSheet.Proofs.MediaBlocks

/-!
# The script and the stylesheet

The stylesheet and the script are made apart from each other.  Each expands the source again, and
only the stylesheet reads the fragments.  They agree all the same
(`Layout.script_agrees_with_stylesheet`): the classes that the script puts on a page are those that
the media blocks ask for, one by one.

The classes are read off the text of the script (`Script.pushed`), and the blocks off the text of
the stylesheet (`Text.paragraphs`).
-/

namespace DeviceSheet

/-! ## The classes of a script -/

namespace Script

/-- The class that is pushed on a line of a script, if one is. -/
def pushed? (line : Text) : Option Text :=
  line.between? "    classNames.push('".toList "');".toList

/-- The classes that are pushed in a script, in order. -/
def pushed (script : Text) : List Text := (script.splitOn '\n').filterMap pushed?

theorem pushed?_push (name : Text) : pushed? (push name) = some (deviceClass name) :=
  Text.between?_eq_some.2 rfl

theorem newline_notMem_of_mem_lines {names : List Text} (h : ∀ name ∈ names, '\n' ∉ name)
    {line : Text} (hline : line ∈ lines names) : '\n' ∉ line := by
  have hfixed : ∀ line ∈ opening ++ closing, '\n' ∉ line := by
    unfold opening closing
    simp
  rw [lines, List.mem_append, List.mem_append, List.mem_map] at hline
  rcases hline with (hline | ⟨name, hname, rfl⟩) | hline
  · exact hfixed line (List.mem_append_left _ hline)
  · unfold push
    simp [newline_notMem_deviceClass (h name hname)]
  · exact hfixed line (List.mem_append_right _ hline)

/-- The script pushes the classes of the named devices, and nothing else. -/
theorem pushed_render {names : List Text} (h : ∀ name ∈ names, '\n' ∉ name) :
    pushed (render names) = names.map deviceClass := by
  have hopening : opening.filterMap pushed? = [] := by decide
  have hclosing : closing.filterMap pushed? = [] := by decide
  have hend : [[]].filterMap pushed? = [] := by decide
  have hpush : (names.map push).filterMap pushed? = names.map deviceClass := by
    rw [List.filterMap_map]
    rw [← List.filterMap_eq_map]
    exact List.filterMap_congr fun name _ => pushed?_push name
  rw [pushed]
  change ((Text.ofLines (lines names)).splitOn '\n').filterMap pushed? = _
  rw [Text.splitOn_ofLines fun _ => newline_notMem_of_mem_lines h, lines, List.filterMap_append,
    List.filterMap_append, List.filterMap_append, hopening, hpush, hclosing, hend, List.nil_append,
    List.append_nil, List.append_nil]

end Script

/-! ## Two products of one source -/

/-- The names of a sheet are those of its calls, if there is one. -/
theorem deviceNames_eq (sheet : Text) :
    deviceNames sheet =
      if calls sheet = [] then .error .noDevices
      else .ok ((calls sheet).map DeviceCall.name) := by
  unfold deviceNames
  cases calls sheet <;> rfl

namespace Layout

variable {l : Layout} {d : Disk}

/-- If the project compiles, the names are those of the devices. -/
theorem deviceNames_of_compile {c : Compiled} (h : (l.compile.run d).value = .ok c) :
    (l.deviceNames.run d).value =
      if c.devices = [] then .error .noDevices
      else .ok (c.devices.map fun device => device.call.name) := by
  cases hsheet : (l.resolveSource.run d).value with
  | error failure => cases (values_of_error hsheet).1.symm.trans h
  | ok sheet =>
    rw [value_compile hsheet] at h
    obtain ⟨devices, hdevices, rfl⟩ := exists_ok_of_map_eq_ok h
    rw [value_deviceNames hsheet, deviceNames_eq, ← map_call_of_devices hdevices, List.map_map]
    simp only [List.map_eq_nil_iff]
    rfl

/-- If the names are known, the project compiles to devices with these names, or the fragment of one
of them cannot be read. -/
theorem compile_of_deviceNames {names : List Text} (h : (l.deviceNames.run d).value = .ok names) :
    (∃ c, (l.compile.run d).value = .ok c ∧
      c.devices.map (fun device => device.call.name) = names) ∨
    ∃ name ∈ names, ∃ cause, (l.compile.run d).value =
      .error (.fragmentUnreadable name (fragmentPath l.deviceDir name) cause) := by
  cases hsheet : (l.resolveSource.run d).value with
  | error failure => cases (values_of_error hsheet).2.symm.trans h
  | ok sheet =>
    rw [value_deviceNames hsheet, deviceNames_eq] at h
    rw [value_compile hsheet]
    split at h
    · cases h
    · cases h
      cases hdevices : (calls sheet).mapM (DeviceCall.device d l.deviceDir) with
      | ok devices =>
        refine .inl ⟨_, rfl, ?_⟩
        rw [← map_call_of_devices hdevices, List.map_map]
        rfl
      | error failure =>
        obtain ⟨before, call, after, hcalls, -, hcall⟩ := mapM_eq_error hdevices
        obtain ⟨cause, -, rfl⟩ := DeviceCall.device_eq_error.1 hcall
        exact .inr ⟨call.name, List.mem_map_of_mem (by simp [hcalls]), cause, rfl⟩

/-- The script pushes the classes of the devices, and the blocks are below these classes. -/
theorem pushed_generateScript {c : Compiled} {output : Option Path} {path : Path} {d' : Disk}
    (hc : (l.compile.run d).value = .ok c) (h : (l.generateScript output).Ends d (.ok path) d') :
    ∃ script, d'.read path = .ok script ∧ Script.pushed script = c.devices.map Device.className ∧
      List.Forall₂ ScopedBy (Script.pushed script) (Text.paragraphs c.css) := by
  obtain ⟨-, names, hnames, hputs⟩ := generateScript_eq_ok h
  obtain ⟨_, _, _, -, -, -, hdevices, -, hcss⟩ := compile_eq_ok_iff.1 hc
  have hvalid := valid_of_devices hdevices
  rw [deviceNames_of_compile hc] at hnames
  split at hnames
  · cases hnames
  · cases hnames
    have hpushed : Script.pushed (Script.render (c.devices.map fun device => device.call.name)) =
        c.devices.map Device.className := by
      rw [Script.pushed_render, List.map_map]
      · rfl
      · intro name hname
        obtain ⟨device, hdevice, rfl⟩ := List.mem_map.1 hname
        exact (hvalid device hdevice).name.notMem rfl
    refine ⟨_, hputs.read, hpushed, ?_⟩
    rw [hpushed, hcss, Device.paragraphs_mediaBlocks hvalid, List.forall₂_map_left_iff,
      List.forall₂_map_right_iff, List.forall₂_same]
    exact fun device _ => device.scopedBy_mediaLines

/-- The script and the stylesheet are made from the same devices, or fail alike.  The classes that a
script pushes are those that the blocks of the stylesheet are below, one by one. -/
theorem script_agrees_with_stylesheet (l : Layout) (d : Disk) :
    (∀ c, (l.compile.run d).value = .ok c → (l.deviceNames.run d).value =
      if c.devices = [] then .error .noDevices
      else .ok (c.devices.map fun device => device.call.name)) ∧
    (∀ names, (l.deviceNames.run d).value = .ok names →
      (∃ c, (l.compile.run d).value = .ok c ∧
        c.devices.map (fun device => device.call.name) = names) ∨
      ∃ name ∈ names, ∃ cause, (l.compile.run d).value =
        .error (.fragmentUnreadable name (fragmentPath l.deviceDir name) cause)) ∧
    (∀ failure, (l.resolveSource.run d).value = .error failure →
      (l.compile.run d).value = .error failure ∧ (l.deviceNames.run d).value = .error failure) ∧
    ∀ c output path, (l.compile.run d).value = .ok c →
      ((l.generateScript output).run d).value = .ok path →
      ∃ script, ((l.generateScript output).run d).disk.read path = .ok script ∧
        Script.pushed script = c.devices.map Device.className ∧
        List.Forall₂ ScopedBy (Script.pushed script) (Text.paragraphs c.css) := by
  exact ⟨fun c => deviceNames_of_compile, fun names => compile_of_deviceNames,
    fun failure => values_of_error, fun c output path hc h => pushed_generateScript hc ⟨h, rfl⟩⟩

/-- A source that calls one device twice, once in an imported file.  Then one fragment is gone, and
then everything is. -/
theorem script_agrees_with_stylesheet_repeated :
    let l : Layout := ⟨⟨"m".toList⟩, ⟨"d".toList⟩, ⟨"css".toList⟩, ⟨"js".toList⟩, 4⟩
    let body : Text := "p \x7b\n\n\x7d\nq\x7b".toList
    let sources : List (Place × Entry) := [
      ([['m']], .file (Text.encode ("$$device(name: \"b\", width: 1, height: 2)".toList ++
        "@import \"i\";$$device(name: \"a\", width: 5, height: 6)".toList))),
      ([['i']], .file (Text.encode "$$device(name: \"a\", width: 3, height: 4)".toList)),
      ([['d']], .dir),
      ([['d'], "a.dmcss".toList], .file body.encode)]
    let d : Disk := ⟨([['d'], "b.dmcss".toList], .file (Text.encode ['r'])) :: sources, []⟩
    let devices : List Device := [⟨⟨['b'], ['1'], ['2']⟩, ['r']⟩, ⟨⟨['a'], ['3'], ['4']⟩, body⟩,
      ⟨⟨['a'], ['5'], ['6']⟩, body⟩]
    let c : Compiled := ⟨⟨devices, []⟩, Device.mediaBlocks devices⟩
    let names : List Text := [['b'], ['a'], ['a']]
    ((l.compile.run d).value = .ok c ∧
      ((l.generateScript none).run d).value = .ok l.scriptOutput ∧
      (l.deviceNames.run ⟨sources, []⟩).value = .ok names ∧
      (l.resolveSource.run ⟨[], []⟩).value = .error (.sourceUnreadable l.source .missing)) ∧
    (l.deviceNames.run d).value = .ok names ∧
    ((∃ c, (l.compile.run ⟨sources, []⟩).value = .ok c ∧
        c.devices.map (fun device => device.call.name) = names) ∨
      ∃ name ∈ names, ∃ cause, (l.compile.run ⟨sources, []⟩).value =
        .error (.fragmentUnreadable name (fragmentPath l.deviceDir name) cause)) ∧
    (l.deviceNames.run ⟨[], []⟩).value = .error (.sourceUnreadable l.source .missing) ∧
    ∃ script, ((l.generateScript none).run d).disk.read l.scriptOutput = .ok script ∧
      Script.pushed script = c.devices.map Device.className ∧
      List.Forall₂ ScopedBy (Script.pushed script) (Text.paragraphs c.css) := by
  intro l body sources d devices c names
  have hruns : (l.compile.run d).value = .ok c ∧
      ((l.generateScript none).run d).value = .ok l.scriptOutput ∧
      (l.deviceNames.run ⟨sources, []⟩).value = .ok names ∧
      (l.resolveSource.run ⟨[], []⟩).value = .error (.sourceUnreadable l.source .missing) := by
    decide +kernel
  obtain ⟨hcompile, hscript, hnames, hsource⟩ := hruns
  exact ⟨⟨hcompile, hscript, hnames, hsource⟩, (script_agrees_with_stylesheet l d).1 c hcompile,
    (script_agrees_with_stylesheet l _).2.1 names hnames,
    ((script_agrees_with_stylesheet l _).2.2.1 _ hsource).2,
    (script_agrees_with_stylesheet l d).2.2.2 c none _ hcompile hscript⟩

end Layout

end DeviceSheet
