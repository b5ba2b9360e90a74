import DeviceSheet.Proofs.Trimming
import DeviceSheet.Proofs.WritingJobs

/-!
# The checks and the grammar

A new device is checked before anything is written.  The checks look at the characters of its name
and dimensions, one after the other.  A sheet is read by the rule for calls, part by part.  The two
agree on all texts, also on those with quotes, commas, parentheses or whole calls in them
(`checks_agree_with_grammar`).

* The text of a call is one token with the parts of the call if and only if the parts are words over
  their classes of characters (`DeviceCall.exists_scan_render_iff`).
* Trimming and units do not lead out of the class of dimensions.  A dimension in its usual form is
  left as it is (`dimension_of_dimension`).
-/

namespace DeviceSheet

/-! ## Dimensions in their usual form -/

/-- No space is part of a dimension. -/
theorem isSpace_of_isDimensionChar {c : Char} (h : isDimensionChar c = true) :
    isSpace c = false := by
  -- the classes of letters and digits are ranges of code points
  change (((decide (65 ≤ c.val ∧ c.val ≤ 90) || (decide (97 ≤ c.val) && decide (c.val ≤ 122))) ||
    (decide (48 ≤ c.val) && decide (c.val ≤ 57))) || decide (c = '%')) = true at h
  simp only [Bool.or_eq_true, Bool.and_eq_true, decide_eq_true_eq, UInt32.le_iff_toNat_le] at h
  change (((65 ≤ c.toNat ∧ c.toNat ≤ 90) ∨ (97 ≤ c.toNat ∧ c.toNat ≤ 122)) ∨
    (48 ≤ c.toNat ∧ c.toNat ≤ 57)) ∨ c = '%' at h
  rw [Bool.eq_false_iff]
  intro hspace
  rcases h with h | rfl
  · simp only [isSpace, spaceRanges, List.any_cons, List.any_nil, Bool.or_false, Bool.or_eq_true,
      Bool.and_eq_true, decide_eq_true_eq] at hspace
    omega
  · cases hspace

theorem Text.trim_of_over {t : Text} (h : t.Over isDimensionChar) : t.trim = t := by
  have hstripped : Stripped isSpace t :=
    ⟨fun c hc => isSpace_of_isDimensionChar (h c (List.mem_of_head? hc)),
      fun c hc => isSpace_of_isDimensionChar (h c (List.mem_of_getLast? hc))⟩
  exact hstripped.strip_eq

/-- A word with a unit is no number. -/
theorem withUnit_withUnit (value : Text) : withUnit (withUnit value) = withUnit value := by
  by_cases hdigits : value.Over Char.isDigit
  · have hword : withUnit value = value ++ "px".toList := if_pos hdigits
    have hunit : ¬ (value ++ "px".toList).Over Char.isDigit := by
      rw [Text.over_append]
      exact fun h => absurd h.2 (by decide)
    rw [hword]
    exact if_neg hunit
  · have hword : withUnit value = value := if_neg hdigits
    rw [hword, hword]

/-- A dimension in its usual form is accepted and stays as it is. -/
theorem dimension_of_dimension {value w : Text} (h : dimension value = .ok w) :
    dimension w = .ok w := by
  obtain ⟨hne, hover⟩ := over_of_dimension h
  obtain ⟨-, rfl⟩ := dimension_eq_ok_iff.1 h
  have htrim := Text.trim_of_over hover
  refine dimension_eq_ok_iff.2 ⟨⟨?_, ?_⟩, ?_⟩
  · rwa [htrim]
  · rwa [htrim]
  · rw [htrim, withUnit_withUnit]

/-! ## Calls as single tokens -/

namespace DeviceCall

variable {call : DeviceCall}

/-- A spelling is scanned as one token. -/
theorem Spelling.scan_eq {lexeme : Text} (h : Spelling call lexeme) :
    scan lexeme = [.device lexeme call] := by
  have hne : lexeme ≠ [] := by
    obtain ⟨tail, rfl, -⟩ := h.dollars
    simp
  have hnext : Token.next? (lexeme ++ []) = some (.device lexeme call, []) :=
    @Token.next?_of_fits (.device lexeme call) [] hne ⟨[], rfl, h, Text.stops_nil isBlank⟩
  rw [List.append_nil] at hnext
  rw [scan_of_next? hnext, scan_nil]

/-- The text of a call is scanned as that call if the call is valid, and never otherwise. -/
theorem exists_scan_render_iff :
    (∃ lexeme, scan call.render = [.device lexeme call]) ↔ call.Valid := by
  constructor
  · rintro ⟨lexeme, hscan⟩
    refine valid_of_mem_calls (t := call.render) ?_
    simp [calls, hscan, Token.call?]
  · exact fun h => ⟨_, h.spelling_render.scan_eq⟩

/-- The parts of a call are valid if they pass the checks. -/
theorem valid_trim_iff {name width height : Text} :
    Valid ⟨name, width.trim, height.trim⟩ ↔
      isDeviceName name = true ∧ IsDimension width ∧ IsDimension height := by
  rw [isDeviceName_iff]
  constructor
  · rintro ⟨name_ne, hname, width_ne, hwidth, height_ne, hheight⟩
    exact ⟨⟨name_ne, hname⟩, ⟨width_ne, hwidth⟩, ⟨height_ne, hheight⟩⟩
  · rintro ⟨⟨name_ne, hname⟩, ⟨width_ne, hwidth⟩, ⟨height_ne, hheight⟩⟩
    exact ⟨name_ne, hname, width_ne, hwidth, height_ne, hheight⟩

end DeviceCall

/-- The text that a registration adds to the source is that of the checked call. -/
theorem Layout.invocation_of_register {l : Layout} {d : Disk} {name width height : Text}
    {registration : Registration} {call : DeviceCall}
    (hcall : DeviceCall.checked name width height = .ok call)
    (h : ((l.register name width height).run d).value = .ok registration) :
    registration.invocation = call.render := by
  cases registers ⟨h, rfl⟩ with
  | done hcall' =>
    cases hcall.symm.trans hcall'
    rfl

/-- A name and two dimensions pass the checks if and only if the text of the call with the trimmed
dimensions is scanned as that call and nothing else.  If they pass, the text that a registration
adds to the source is scanned as one token with the dimensions in their usual form, and these pass
the checks as they are. -/
theorem checks_agree_with_grammar (name width height : Text) :
    ((isDeviceName name = true ∧ dimension width = .ok (withUnit width.trim) ∧
        dimension height = .ok (withUnit height.trim)) ↔
      ∃ lexeme, scan (DeviceCall.render ⟨name, width.trim, height.trim⟩) =
        [.device lexeme ⟨name, width.trim, height.trim⟩]) ∧
    ∀ w h, isDeviceName name = true → dimension width = .ok w → dimension height = .ok h →
      (w = withUnit width.trim ∧ h = withUnit height.trim) ∧
      scan (DeviceCall.render ⟨name, w, h⟩) =
        [.device (DeviceCall.render ⟨name, w, h⟩) ⟨name, w, h⟩] ∧
      (∀ (l : Layout) (d : Disk) (registration : Registration),
        ((l.register name width height).run d).value = .ok registration →
          registration.invocation = DeviceCall.render ⟨name, w, h⟩) ∧
      dimension w = .ok w ∧ dimension h = .ok h := by
  constructor
  · rw [DeviceCall.exists_scan_render_iff, DeviceCall.valid_trim_iff, dimension_eq_ok_iff,
      dimension_eq_ok_iff]
    simp
  · intro w h hname hwidth hheight
    have hcall : DeviceCall.checked name width height = .ok ⟨name, w, h⟩ :=
      DeviceCall.checked_eq_ok_iff.2 ⟨hname, rfl, hwidth, hheight⟩
    exact ⟨⟨(dimension_eq_ok_iff.1 hwidth).2, (dimension_eq_ok_iff.1 hheight).2⟩,
      (DeviceCall.spelling_of_checked hcall).scan_eq,
      fun l d registration hregister => Layout.invocation_of_register hcall hregister,
      dimension_of_dimension hwidth, dimension_of_dimension hheight⟩

/-- Spaces that are no blanks stand around a number and are trimmed off.  A name with a whole call
in it would make two calls out of one, and does not pass. -/
theorem checks_agree_with_grammar_spaced :
    let name : Text := "tv-2".toList
    let width : Text := "\u00a0412\u2003".toList
    let height : Text := "\t50%\n".toList
    let call : DeviceCall := ⟨name, "412px".toList, "50%".toList⟩
    let name' : Text := "a\", width: 1, height: 2)$$device(name: \"b".toList
    (isDeviceName name = true ∧ dimension width = .ok call.width ∧
      dimension height = .ok call.height ∧ isDeviceName name' = false) ∧
    (∃ lexeme, scan (DeviceCall.render ⟨name, width.trim, height.trim⟩) =
      [.device lexeme ⟨name, "412".toList, "50%".toList⟩]) ∧
    scan call.render = [.device call.render call] ∧ dimension call.width = .ok call.width ∧
    ¬ ∃ lexeme, scan (DeviceCall.render ⟨name', width.trim, height.trim⟩) =
      [.device lexeme ⟨name', width.trim, height.trim⟩] := by
  intro name width height call name'
  have hchecks : isDeviceName name = true ∧ dimension width = .ok call.width ∧
      dimension height = .ok call.height ∧ isDeviceName name' = false := by decide +kernel
  obtain ⟨hname, hwidth, hheight, hname'⟩ := hchecks
  obtain ⟨hiff, hpass⟩ := checks_agree_with_grammar name width height
  obtain ⟨-, hscan, -, hwidth', -⟩ := hpass _ _ hname hwidth hheight
  refine ⟨⟨hname, hwidth, hheight, hname'⟩, hiff.1 ⟨hname, hwidth, hheight⟩, hscan, hwidth', ?_⟩
  rw [← (checks_agree_with_grammar name' width height).1, hname']
  simp

end DeviceSheet
