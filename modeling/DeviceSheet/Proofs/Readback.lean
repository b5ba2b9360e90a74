import DeviceSheet.Proofs.MediaBlocks

/-!
# Reading media blocks back

What a media block tells of a device is its *block*: the size of the screen, and the lines of the
body without the spaces at their ends, each with what it is.  The header of a rule also tells the
name of the device, and no other line does.

The block of a device is said here in terms of the body alone (`Device.block`).  It is written out
line by line (`Block.lines`), and the lines are read back (`Block.read?`).  Reading undoes writing,
whatever a body looks like:

* The third character of a line tells a header, the end of a rule and a declaration apart.  It
  stands before anything that comes from the body.
* The name in a header ends at a space, and the dimensions end at a bracket.  Neither is in them.
* The blocks of a stylesheet are its paragraphs (`Device.paragraphs_mediaBlocks`).

So two lists of devices have the same media blocks exactly if they have the same blocks
(`Device.mediaBlocks_eq_iff`).
-/

namespace DeviceSheet

/-! ## Blocks -/

/-- What a media block tells of one line of a body. -/
inductive Part where
  /-- The header of a rule for the named device. -/
  | header (name selector : Text)
  /-- The end of a rule. -/
  | close
  /-- Anything else. -/
  | declaration (text : Text)
deriving DecidableEq

/-- What a media block tells of a device. -/
structure Block where
  /-- The width of the screen. -/
  width : Text
  /-- The height of the screen. -/
  height : Text
  /-- The lines of the body. -/
  parts : List Part
deriving DecidableEq

/-- A line of the body of the named device, read from its end. -/
def Part.ofLine (name line : Text) : Part :=
  match line.trim.reverse with
  | '\x7b' :: before => .header name (before.dropWhile isSpace).reverse
  | ['\x7d'] => .close
  | _ => .declaration line.trim

/-- What the media block of a device tells of it. -/
def Device.block (d : Device) : Block :=
  ⟨d.call.width, d.call.height, d.body.lines.map (Part.ofLine d.call.name)⟩

/-! ## Writing and reading -/

/-- Values that are read back one by one are read back together. -/
theorem mapM_map_eq_some {α β γ : Type} {write : α → β} {read : β → Option γ} {value : α → γ}
    {as : List α} (h : ∀ a ∈ as, read (write a) = some (value a)) :
    (as.map write).mapM read = some (as.map value) := by
  induction as with
  | nil => rfl
  | cons a as ih =>
    rw [List.forall_mem_cons] at h
    rw [List.map_cons, List.mapM_cons, h.1, ih h.2]
    rfl

namespace Part

/-- The line of a media block for one line of a body. -/
def line : Part → Text
  | .header name selector =>
      "  .device-".toList ++ (name ++ (" ".toList ++ selector ++ " \x7b".toList))
  | .close => "  \x7d".toList
  | .declaration text => "    ".toList ++ text

/-- Reads a line of a media block. -/
def read? (line : Text) : Option Part :=
  if line = "  \x7d".toList then some .close
  else match line.after? "    ".toList with
    | some text => some (.declaration text)
    | none => do
        let rest ← line.after? "  .device-".toList
        let (name, rest) ← rest.run? isNameChar
        let selector ← rest.between? " ".toList " \x7b".toList
        return .header name selector

/-- If the part is a header, its name is a word over the characters of names. -/
inductive Named : Part → Prop
  | header {name selector : Text} : name ≠ [] → name.Over isNameChar → Named (.header name selector)
  | close : Named .close
  | declaration {text : Text} : Named (.declaration text)

/-- A line of the body of a device is named as the device is. -/
theorem named_ofLine {name : Text} (hne : name ≠ []) (hname : name.Over isNameChar) (line : Text) :
    (ofLine name line).Named := by
  unfold ofLine
  split
  · exact .header hne hname
  · exact .close
  · exact .declaration

/-- A line of a body is written as its item is. -/
theorem line_ofLine (name line : Text) :
    (ofLine name line).line = (Item.ofLine line).line (deviceClass name) := by
  simp only [ofLine, Item.ofLine]
  generalize line.trim = trimmed
  split
  · next before hlast =>
    obtain rfl : trimmed = before.reverse ++ ['\x7b'] := by simpa using congrArg List.reverse hlast
    rw [List.getLast?_concat, if_pos rfl, List.dropLast_concat, Text.trimEnd, List.reverse_reverse]
    unfold Part.line Item.line deviceClass
    simp
  · next hlast =>
    obtain rfl : trimmed = ['\x7d'] := by simpa using congrArg List.reverse hlast
    rfl
  · next hopen hclose =>
    have hopen' : trimmed.getLast? ≠ some '\x7b' := by
      intro h
      obtain ⟨before, rfl⟩ := List.getLast?_eq_some_iff.1 h
      exact hopen before.reverse (by simp)
    have hclose' : trimmed ≠ ['\x7d'] := by
      rintro rfl
      exact hclose rfl
    rw [if_neg hopen', if_neg hclose']
    rfl

/-- The name ends at the space behind it, and the selector at the end of the line. -/
theorem read?_header {name selector : Text} (hne : name ≠ []) (hname : name.Over isNameChar) :
    read? (header name selector).line = some (.header name selector) := by
  have hstops : Text.Stops isNameChar (" ".toList ++ selector ++ " \x7b".toList) := by
    rw [List.append_assoc]
    exact Text.stops_append rfl _
  have hselector : Text.between? (" ".toList ++ selector ++ " \x7b".toList) " ".toList
      " \x7b".toList = some selector := Text.between?_eq_some.2 rfl
  have hline : (header name selector).line =
      "  .device-".toList ++ (name ++ (" ".toList ++ selector ++ " \x7b".toList)) := rfl
  generalize " ".toList ++ selector ++ " \x7b".toList = rest at hstops hselector hline
  have hclose : "  .device-".toList ++ (name ++ rest) ≠ "  \x7d".toList := by simp
  have htext : Text.after? ("  .device-".toList ++ (name ++ rest)) "    ".toList = none := by
    simp [Text.after?]
  have hclass : Text.after? ("  .device-".toList ++ (name ++ rest)) "  .device-".toList =
      some (name ++ rest) := Text.after?_eq_some.2 rfl
  have hrun : Text.run? isNameChar (name ++ rest) = some (name, rest) :=
    Text.run?_eq_some.2 ⟨rfl, hne, hname, hstops⟩
  unfold read?
  rw [hline, if_neg hclose, htext, hclass]
  simp only [bind, Option.bind_some, hrun, hselector, pure]

/-- A line that is written out is read back. -/
theorem read?_line {part : Part} (h : part.Named) : read? part.line = some part := by
  cases h with
  | header hne hname => exact read?_header hne hname
  | close =>
    unfold read? line
    simp
  | @declaration text =>
    have htext : Text.after? ("    ".toList ++ text) "    ".toList = some text :=
      Text.after?_eq_some.2 rfl
    unfold read? line
    rw [if_neg (by simp), htext]

end Part

namespace Block

/-- The lines of a media block. -/
def lines (b : Block) : List Text :=
  ("@media (width: ".toList ++ (b.width ++ (") and (height: ".toList ++ (b.height ++
    ") \x7b".toList)))) :: b.parts.map Part.line ++ ["\x7d".toList]

/-- Reads the lines of a media block. -/
def read? : List Text → Option Block
  | [] => none
  | first :: others => do
      let rest ← first.after? "@media (width: ".toList
      let (width, rest) ← rest.run? isDimensionChar
      let rest ← rest.after? ") and (height: ".toList
      let (height, _) ← rest.run? isDimensionChar
      let parts ← others.dropLast.mapM Part.read?
      return ⟨width, height, parts⟩

/-- The words of the block are over their classes of characters. -/
structure WellFormed (b : Block) : Prop where
  width_ne : b.width ≠ []
  width : b.width.Over isDimensionChar
  height_ne : b.height ≠ []
  height : b.height.Over isDimensionChar
  parts : ∀ part ∈ b.parts, part.Named

/-- A block that is written out is read back. -/
theorem read?_lines {b : Block} (h : b.WellFormed) : read? b.lines = some b := by
  have hwidth : ∀ rest, Text.run? isDimensionChar (b.width ++ (") and (height: ".toList ++ rest)) =
      some (b.width, ") and (height: ".toList ++ rest) := fun rest =>
    Text.run?_eq_some.2 ⟨rfl, h.width_ne, h.width, Text.stops_append rfl rest⟩
  have hheight : Text.run? isDimensionChar (b.height ++ ") \x7b".toList) =
      some (b.height, ") \x7b".toList) :=
    Text.run?_eq_some.2 ⟨rfl, h.height_ne, h.height, by simpa using Text.stops_append rfl []⟩
  have hpart : ∀ part ∈ b.parts, Part.read? part.line = some (id part) := fun part hpart =>
    Part.read?_line (h.parts part hpart)
  have hparts : (b.parts.map Part.line).mapM Part.read? = some b.parts := by
    rw [mapM_map_eq_some hpart, List.map_id]
  unfold read? lines
  rw [List.cons_append]
  simp only [Text.after?_eq_some.2 rfl, bind, Option.bind_some, hwidth, hheight,
    List.dropLast_concat, hparts, pure]

end Block

namespace Device

variable {d : Device}

/-- The block of a device with a valid call can be read back. -/
theorem wellFormed_block (h : d.call.Valid) : d.block.WellFormed where
  width_ne := h.width_ne
  width := h.width
  height_ne := h.height_ne
  height := h.height
  parts part hpart := by
    obtain ⟨line, -, rfl⟩ := List.mem_map.1 hpart
    exact Part.named_ofLine h.name_ne h.name line

/-- The media block of a device is its block, written out. -/
theorem mediaLines_eq (d : Device) : d.mediaLines = d.block.lines := by
  have hparts : d.items.map (Item.line d.className) = d.block.parts.map Part.line := by
    rw [items, block, List.map_map, List.map_map]
    exact List.map_congr_left fun line _ => (Part.line_ofLine d.call.name line).symm
  unfold mediaLines query Block.lines
  rw [hparts]
  simp [block]

/-- Reads the media blocks of a stylesheet. -/
def readBlocks? (css : Text) : Option (List Block) := css.paragraphs.mapM Block.read?

/-- The media blocks of devices are read back. -/
theorem readBlocks?_mediaBlocks {ds : List Device} (h : ∀ d ∈ ds, d.call.Valid) :
    readBlocks? (mediaBlocks ds) = some (ds.map block) := by
  rw [readBlocks?, paragraphs_mediaBlocks h]
  refine mapM_map_eq_some fun d hd => ?_
  rw [mediaLines_eq, Block.read?_lines (wellFormed_block (h d hd))]

/-- Media blocks are written from the blocks alone. -/
theorem mediaBlocks_eq (ds : List Device) :
    mediaBlocks ds =
      "\n".toList.intercalate ((ds.map block).map fun b => Text.ofLines b.lines) := by
  rw [mediaBlocks, List.map_map]
  congr 1
  refine List.map_congr_left fun d _ => ?_
  rw [media_eq, mediaLines_eq]
  rfl

/-- Two lists of devices have the same media blocks exactly if they have the same blocks.  Nothing
is lost, and nothing is moved from one device to another. -/
theorem mediaBlocks_eq_iff {ds ds' : List Device} (hds : ∀ d ∈ ds, d.call.Valid)
    (hds' : ∀ d ∈ ds', d.call.Valid) :
    mediaBlocks ds = mediaBlocks ds' ↔ ds.map block = ds'.map block := by
  constructor
  · intro h
    have hread := congrArg readBlocks? h
    rw [readBlocks?_mediaBlocks hds, readBlocks?_mediaBlocks hds'] at hread
    exact Option.some.inj hread
  · intro h
    rw [mediaBlocks_eq, mediaBlocks_eq, h]

/-- Spaces do not matter, and neither does the name of a device without rules.  A body that ends its
block and starts the next one is told from two bodies. -/
theorem mediaBlocks_eq_iff_imitation :
    let a : DeviceCall := ⟨"a".toList, "1px".toList, "2px".toList⟩
    let ds : List Device := [⟨a, " b\x7b\r\n\x7d\n".toList⟩,
      ⟨⟨"x".toList, "3%".toList, "4".toList⟩, "c".toList⟩]
    let spaced : List Device := [⟨a, "b \x7b\n\t\x7d".toList⟩,
      ⟨⟨"y".toList, "3%".toList, "4".toList⟩, " c\u2003".toList⟩]
    let single : List Device :=
      [⟨a, "b\x7b\n\x7d\n\x7d\n\n@media (width: 3%) and (height: 4) \x7b\nc".toList⟩]
    ((∀ d ∈ ds, d.call.Valid) ∧ (∀ d ∈ spaced, d.call.Valid) ∧ ∀ d ∈ single, d.call.Valid) ∧
      mediaBlocks ds = mediaBlocks spaced ∧ mediaBlocks ds ≠ mediaBlocks single := by
  intro a ds spaced single
  have hvalid : (∀ d ∈ ds, d.call.Valid) ∧ (∀ d ∈ spaced, d.call.Valid) ∧
      ∀ d ∈ single, d.call.Valid := by decide +kernel
  obtain ⟨hds, hspaced, hsingle⟩ := hvalid
  refine ⟨⟨hds, hspaced, hsingle⟩, (mediaBlocks_eq_iff hds hspaced).2 (by decide +kernel), ?_⟩
  intro h
  exact absurd ((mediaBlocks_eq_iff hds hsingle).1 h) (by decide +kernel)

end Device

end DeviceSheet
