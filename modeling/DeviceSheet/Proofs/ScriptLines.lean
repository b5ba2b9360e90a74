import DeviceSheet.Proofs.CompanionScript

/-!
# The lines of a script

The names of devices are put between the quotes of a script as they are.  A name with a quote or a
line feed in it would end the string, or the line.  No source has such a name
(`names_unbroken_in_script`), since what is read as a name is a word over letters, digits and dashes.
So the names can be read off the script again.

* The lines that push a class are told by their first part (`Script.isPush`).  None of the fixed lines
  is one.
* Each line of a script is ended by a line feed.  So the lines come from the parts of the script one
  by one, whatever the names are (`Script.pushLines_render`).
-/

namespace DeviceSheet

namespace Script

/-- The first part of the lines that push a class. -/
def pushStart : Text := "    classNames.push('device-".toList

/-- Does the line push a class? -/
def isPush (line : Text) : Bool := (line.after? pushStart).isSome

/-- The lines of a script that push a class. -/
def pushLines (script : Text) : List Text := script.lines.filter isPush

/-- The lines of a script that do not. -/
def otherLines (script : Text) : List Text := script.lines.filter fun line => !isPush line

/-- The names on the lines of a script that push a class. -/
def readNames (script : Text) : List Text :=
  (pushLines script).filterMap (·.between? pushStart "');".toList)

theorem push_eq (name : Text) : push name = pushStart ++ name ++ "');".toList := by
  unfold push pushStart deviceClass
  simp

theorem isPush_push (name : Text) : isPush (push name) = true := by
  rw [isPush, Text.after?_eq_some.2 (push_eq name ▸ List.append_assoc _ _ _)]
  rfl

/-! ## All scripts -/

/-- The fixed lines of a script. -/
theorem fixed_lines {line : Text} (h : line ∈ opening ++ closing) :
    Text.lines (line ++ ['\n']) = [line] ∧ isPush line = false := by
  have hall : ∀ line ∈ opening ++ closing,
      '\n' ∉ line ∧ line.getLast? ≠ some '\r' ∧ isPush line = false := by
    unfold opening closing isPush pushStart
    simp [Text.after?]
  obtain ⟨hnewline, hreturn, hpush⟩ := hall line h
  exact ⟨Text.lines_concat_newline hnewline hreturn, hpush⟩

section

variable {fixed : List Text} (h : ∀ line ∈ fixed, line ∈ opening ++ closing)

include h

theorem flatMap_lines_fixed : fixed.flatMap (fun line => Text.lines (line ++ ['\n'])) = fixed := by
  rw [List.flatMap_congr fun line hline => (fixed_lines (h line hline)).1]
  exact List.flatMap_singleton' fixed

theorem filter_isPush_fixed : fixed.filter isPush = [] := by
  rw [List.filter_eq_nil_iff]
  intro line hline
  simp [(fixed_lines (h line hline)).2]

theorem filter_not_isPush_fixed : fixed.filter (fun line => !isPush line) = fixed := by
  rw [List.filter_eq_self]
  intro line hline
  simp [(fixed_lines (h line hline)).2]

end

/-- The lines of a script are the fixed ones and those of the lines for the names. -/
theorem lines_render (names : List Text) :
    (render names).lines =
      opening ++ names.flatMap (fun name => Text.lines (push name ++ ['\n'])) ++ closing := by
  change (Text.ofLines (lines names)).lines = _
  rw [Text.lines_ofLines, lines, List.flatMap_append, List.flatMap_append, List.flatMap_map,
    flatMap_lines_fixed fun line => List.mem_append_left closing,
    flatMap_lines_fixed fun line => List.mem_append_right opening]

/-- The lines that push a class come from the names, one name after the other. -/
theorem pushLines_render (names : List Text) :
    pushLines (render names) = names.flatMap fun name => pushLines (push name ++ ['\n']) := by
  rw [pushLines, lines_render, List.filter_append, List.filter_append,
    filter_isPush_fixed fun line => List.mem_append_left closing,
    filter_isPush_fixed fun line => List.mem_append_right opening, List.nil_append,
    List.append_nil, List.filter_flatMap]
  rfl

/-- Names in a row have their lines in a row. -/
theorem pushLines_append (names more : List Text) :
    pushLines (render (names ++ more)) = pushLines (render names) ++ pushLines (render more) := by
  simp only [pushLines_render, List.flatMap_append]

/-! ## Scripts for names without line feeds -/

section

variable {names : List Text} (h : ∀ name ∈ names, '\n' ∉ name)

include h

/-- If no name has a line feed in it, the script has one line for each. -/
theorem lines_render_of_notMem : (render names).lines = lines names := by
  have hline : ∀ name ∈ names, Text.lines (push name ++ ['\n']) = [push name] := by
    intro name hname
    rw [push_eq]
    refine Text.lines_concat_newline ?_ ?_
    · unfold pushStart
      simp [h name hname]
    · simp
  rw [lines_render, List.flatMap_congr hline, ← List.map_eq_flatMap, lines]

theorem pushLines_of_notMem : pushLines (render names) = names.map push := by
  have hpushes : (names.map push).filter isPush = names.map push := by
    simp [List.filter_eq_self, isPush_push]
  rw [pushLines, lines_render_of_notMem h, lines, List.filter_append, List.filter_append, hpushes,
    filter_isPush_fixed fun line => List.mem_append_left closing,
    filter_isPush_fixed fun line => List.mem_append_right opening, List.nil_append,
    List.append_nil]

theorem otherLines_of_notMem : otherLines (render names) = opening ++ closing := by
  have hpushes : (names.map push).filter (fun line => !isPush line) = [] := by
    simp [isPush_push]
  rw [otherLines, lines_render_of_notMem h, lines, List.filter_append, List.filter_append, hpushes,
    filter_not_isPush_fixed fun line => List.mem_append_left closing,
    filter_not_isPush_fixed fun line => List.mem_append_right opening, List.append_nil]

theorem readNames_of_notMem : readNames (render names) = names := by
  rw [readNames, pushLines_of_notMem h, List.filterMap_map]
  calc
    _ = names.filterMap some :=
      List.filterMap_congr fun name _ => Text.between?_eq_some.2 (push_eq name)
    _ = names := List.filterMap_some

end

end Script

/-- The names of a sheet are words over letters, digits and dashes. -/
theorem over_of_deviceNames {sheet : Text} {names : List Text}
    (h : deviceNames sheet = .ok names) : ∀ name ∈ names, name ≠ [] ∧ name.Over isNameChar := by
  rw [deviceNames_eq] at h
  split at h
  · cases h
  · cases h
    intro name hname
    obtain ⟨call, hcall, rfl⟩ := List.mem_map.1 hname
    have hvalid := valid_of_mem_calls hcall
    exact ⟨hvalid.name_ne, hvalid.name⟩

/-- Every name of a source is a word over letters, digits and dashes.  The script for the names has
one line that pushes a class for each, in order, and its other lines do not depend on the source.
So the names can be read off the script.  Scripts for names in a row have their lines in a row. -/
theorem names_unbroken_in_script :
    (∀ sheet names, deviceNames sheet = .ok names →
      (∀ name ∈ names, name ≠ [] ∧ name.Over isNameChar) ∧
      Script.pushLines (Script.render names) =
        names.map (fun name => "    classNames.push('device-".toList ++ name ++ "');".toList) ∧
      Script.otherLines (Script.render names) = Script.opening ++ Script.closing ∧
      Script.readNames (Script.render names) = names) ∧
    ∀ names more, Script.pushLines (Script.render (names ++ more)) =
      Script.pushLines (Script.render names) ++ Script.pushLines (Script.render more) := by
  refine ⟨fun sheet names hnames => ?_, Script.pushLines_append⟩
  have hover := over_of_deviceNames hnames
  have hnewline : ∀ name ∈ names, '\n' ∉ name := fun name hname => (hover name hname).2.notMem rfl
  refine ⟨hover, ?_, Script.otherLines_of_notMem hnewline, Script.readNames_of_notMem hnewline⟩
  rw [Script.pushLines_of_notMem hnewline]
  exact List.map_congr_left fun name _ => Script.push_eq name

/-- A call that would break out of the string is no call, and a device that is called twice has two
lines. -/
theorem names_unbroken_in_script_of_hostile_sheet :
    let sheet := "$$device(name:\"b\",width:1,height:1)
$$device(name:\"a');x('\",width:1,height:1)$$device(name:\"b\",width:2,height:2)".toList
    let names := [['b'], ['b']]
    deviceNames sheet = .ok names ∧
      Script.pushLines (Script.render names) =
        ["    classNames.push('device-b');".toList, "    classNames.push('device-b');".toList] ∧
      Script.otherLines (Script.render names) = Script.opening ++ Script.closing ∧
      Script.readNames (Script.render names) = names := by
  intro sheet names
  have hnames : deviceNames sheet = .ok names := by decide +kernel
  obtain ⟨-, hpushes, hothers, hread⟩ := names_unbroken_in_script.1 sheet names hnames
  exact ⟨hnames, hpushes, hothers, hread⟩

end DeviceSheet
