import DeviceSheet.Proofs.MediaBlocks
import DeviceSheet.Proofs.Trimming

/-!
# The lines of a fragment

The text of a fragment is trimmed as a whole, cut into lines, and then each line is trimmed.  All
that gets into the media block is the core of the text, and each line of the core is one line of the
block (`Device.items_ofFragment`).  So the block stays the same when the fragment is indented in
another way, gets other line ends, or has blank lines before it or behind it
(`Device.media_ofFragment`).
-/

namespace DeviceSheet

/-- The item on a line does not depend on the spaces at its ends. -/
theorem Item.ofLine_trim (line : Text) : Item.ofLine line.trim = Item.ofLine line := by
  simp only [ofLine, Text.trim_trim]

namespace Text

/-- Lines without line feeds are the lines of the text they make up, as many as they are. -/
theorem length_lines_ofLines {ls : List Text} (h : ∀ line ∈ ls, '\n' ∉ line) :
    (ofLines ls).lines.length = ls.length := by
  simp [lines_of_pieces (splitOn_ofLines h)]

end Text

namespace Device

variable {call : DeviceCall}

/-- The items of a fragment are those on the lines of its core. -/
theorem items_ofFragment (call : DeviceCall) (f : Text) :
    (ofFragment call f).items = f.core.map Item.ofLine := by
  rw [← Text.map_trim_lines, List.map_map]
  exact List.map_congr_left fun line _ => (Item.ofLine_trim line).symm

/-- Fragments with one core have one media block. -/
theorem media_ofFragment_eq {f g : Text} (h : f.core = g.core) :
    (ofFragment call f).media = (ofFragment call g).media := by
  have hitems : (ofFragment call f).items = (ofFragment call g).items := by
    rw [items_ofFragment, items_ofFragment, h]
  rw [media_eq, media_eq]
  unfold mediaLines
  rw [hitems]
  rfl

/-- A media block has a line for each line of the core, and two more. -/
theorem length_lines_media (hcall : '\n' ∉ call.name ++ call.width ++ call.height) (f : Text) :
    (ofFragment call f).media.lines.length = f.core.length + 2 := by
  simp only [List.mem_append, not_or] at hcall
  obtain ⟨⟨hname, hwidth⟩, hheight⟩ := hcall
  rw [media_eq, Text.length_lines_ofLines]
  · unfold mediaLines
    simp [items_ofFragment]
  · exact fun line hline => (line_of_mem_mediaLines hname hwidth hheight hline).2

/-- The media block of a fragment depends on the core of its text only.  It is the same for other
spaces in front of the lines, for carriage returns before the line feeds, and for spaces around the
text, blank lines among them.  It has two lines more than the core, unless the call itself has line
feeds in it, and no call of a sheet has. -/
theorem media_ofFragment (call : DeviceCall) :
    (∀ f g : Text, f.core = g.core → (ofFragment call f).media = (ofFragment call g).media) ∧
    (∀ indent : Nat → Text, (∀ i, (indent i).Over isSpace) → (∀ i, '\n' ∉ indent i) →
      ∀ f : Text, (ofFragment call (f.reindent indent)).media = (ofFragment call f).media) ∧
    (∀ f : Text, (ofFragment call f.withReturns).media = (ofFragment call f).media) ∧
    (∀ before f after : Text, before.Over isSpace → after.Over isSpace →
      (ofFragment call (before ++ (f ++ after))).media = (ofFragment call f).media) ∧
    ('\n' ∉ call.name ++ call.width ++ call.height →
      ∀ f : Text, (ofFragment call f).media.lines.length = f.core.length + 2) ∧
    ∀ sheet, call ∈ calls sheet → '\n' ∉ call.name ++ call.width ++ call.height := by
  refine ⟨fun f g => media_ofFragment_eq, ?_, ?_, ?_, length_lines_media, ?_⟩
  · exact fun indent hspace hnewline f => media_ofFragment_eq (f.core_reindent hspace hnewline)
  · exact fun f => media_ofFragment_eq f.core_withReturns
  · exact fun before f after hbefore hafter =>
      media_ofFragment_eq (Text.core_append hbefore hafter)
  · intro sheet hcall
    have hvalid := valid_of_mem_calls hcall
    have hname : '\n' ∉ call.name := hvalid.name.notMem (by decide)
    have hwidth : '\n' ∉ call.width := hvalid.width.notMem (by decide)
    have hheight : '\n' ∉ call.height := hvalid.height.notMem (by decide)
    simp [hname, hwidth, hheight]

/-- A lone carriage return ends the first text, and the second has spaces of many kinds at its ends
and at the ends of its lines. -/
theorem media_ofFragment_respaced :
    let call : DeviceCall := ⟨"a".toList, "1px".toList, "2px".toList⟩
    let f : Text := "b\x7b\n\nc\x0bd\n\x7d\r".toList
    let g : Text := "\x0b\n \u2028b\x7b\u0085\r\n\t\r\n\u3000c\x0bd\n\x7d\n\x0c\r\n".toList
    let lines : List Text := ["b\x7b".toList, [], "c\x0bd".toList, ['\x7d']]
    (f.core = lines ∧ g.core = lines ∧ '\n' ∉ call.name ++ call.width ++ call.height) ∧
      (ofFragment call f).media = (ofFragment call g).media ∧
      (ofFragment call g).media.lines.length = 6 := by
  intro call f g lines
  have hf : f.core = lines := by decide +kernel
  have hg : g.core = lines := by decide +kernel
  have hcall : '\n' ∉ call.name ++ call.width ++ call.height := by decide
  obtain ⟨heq, -, -, -, hlength, -⟩ := media_ofFragment call
  have hsix := hlength hcall g
  rw [hg] at hsix
  exact ⟨⟨hf, hg, hcall⟩, heq f g (hf.trans hg.symm), hsix⟩

end Device

end DeviceSheet
