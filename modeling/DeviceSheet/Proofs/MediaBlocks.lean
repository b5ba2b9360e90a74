import DeviceSheet.Proofs.CallSearch
import DeviceSheet.Proofs.Lines

/-!
# The lines of a media block

A media block is a first line with the size of the screen, one line per item and a last line.  None
of these is empty.  The call of a device has no line feed in it, and an item comes from one line of
the body.  So the blocks of several devices are the paragraphs of the stylesheet they make up
(`Device.paragraphs_mediaBlocks`): nothing in a body ends a block early or runs on into the next.
-/

namespace DeviceSheet

/-! ## Items on one line -/

namespace Item

/-- The line of an item in a media block, without the line feed. -/
def line (scope : Text) : Item → Text
  | .header selector => "  .".toList ++ scope ++ " ".toList ++ selector ++ " \x7b".toList
  | .close => "  \x7d".toList
  | .declaration text => "    ".toList ++ text

theorem render_eq (scope : Text) (item : Item) : item.render scope = item.line scope ++ ['\n'] := by
  unfold render line
  cases item <;> simp

/-- The text of the item has no line feed in it, and only a header opens a rule. -/
inductive OneLine : Item → Prop
  | header {selector : Text} : '\n' ∉ selector → OneLine (.header selector)
  | close : OneLine .close
  | declaration {text : Text} : '\n' ∉ text → text.getLast? ≠ some '\x7b' →
      OneLine (.declaration text)

/-- The item of a line is on one line. -/
theorem oneLine_ofLine {l : Text} (h : '\n' ∉ l) : (ofLine l).OneLine := by
  have htrim : '\n' ∉ l.trim := fun hmem => h ((Text.trim_sublist l).mem hmem)
  simp only [ofLine]
  split
  · refine .header fun hmem => htrim ?_
    exact ((Text.trimEnd_sublist _).trans (List.dropLast_sublist _)).mem hmem
  · next hbrace =>
    split
    · exact .close
    · exact .declaration htrim hbrace

variable {scope : Text} {item : Item}

theorem line_ne_nil (scope : Text) (item : Item) : item.line scope ≠ [] := by
  unfold line
  cases item <;> simp

theorem OneLine.newline_notMem (h : item.OneLine) (hscope : '\n' ∉ scope) :
    '\n' ∉ item.line scope := by
  unfold line
  cases h with
  | header hselector => simp [hscope, hselector]
  | close => simp
  | declaration htext _ => simp [htext]

/-- A line that ends in a brace is the header of a rule. -/
theorem OneLine.exists_selector (h : item.OneLine)
    (hend : (item.line scope).getLast? = some '\x7b') : ∃ selector, item = .header selector := by
  unfold line at hend
  cases h with
  | header => exact ⟨_, rfl⟩
  | close => simp at hend
  | declaration _ htext =>
    rw [List.getLast?_append, Option.or_eq_some_iff] at hend
    rcases hend with hend | ⟨-, hend⟩
    · exact absurd hend htext
    · simp at hend

end Item

/-! ## Blocks -/

theorem newline_notMem_deviceClass {name : Text} (h : '\n' ∉ name) : '\n' ∉ deviceClass name := by
  unfold deviceClass
  simp [h]

/-- The lines are a media block in which the header of every rule is below the class. -/
def ScopedBy (scope : Text) (block : List Text) : Prop :=
  ∃ query body, block = ("@media ".toList ++ query ++ " \x7b".toList) :: body ++ ["\x7d".toList] ∧
    ∀ line ∈ body, line.getLast? = some '\x7b' →
      ∃ selector, line = "  .".toList ++ scope ++ " ".toList ++ selector ++ " \x7b".toList

namespace Device

/-- The size of the screen, as the first line of a media block asks for it. -/
def query (d : Device) : Text :=
  "(width: ".toList ++ d.call.width ++ ") and (height: ".toList ++ d.call.height ++ ")".toList

/-- The lines of the media block of a device. -/
def mediaLines (d : Device) : List Text :=
  ("@media ".toList ++ d.query ++ " \x7b".toList) :: d.items.map (Item.line d.className) ++
    ["\x7d".toList]

theorem media_eq (d : Device) : d.media = Text.ofLines d.mediaLines := by
  have hitems : d.items.flatMap (Item.render d.className) =
      Text.ofLines (d.items.map (Item.line d.className)) := by
    rw [Text.ofLines, List.flatMap_map]
    congr 1
    exact funext (Item.render_eq d.className)
  unfold media mediaLines query
  simp [hitems]

theorem oneLine_of_mem_items {d : Device} {item : Item} (h : item ∈ d.items) : item.OneLine := by
  obtain ⟨line, hline, rfl⟩ := List.mem_map.1 h
  exact Item.oneLine_ofLine (Text.newline_notMem_of_mem_lines hline)

/-- A line of a media block is not empty, and it has no line feed in it if the call has none. -/
theorem line_of_mem_mediaLines {d : Device} (hname : '\n' ∉ d.call.name)
    (hwidth : '\n' ∉ d.call.width) (hheight : '\n' ∉ d.call.height) {line : Text}
    (h : line ∈ d.mediaLines) : line ≠ [] ∧ '\n' ∉ line := by
  unfold mediaLines query at h
  rw [List.mem_append, List.mem_cons, List.mem_map, List.mem_singleton] at h
  rcases h with (rfl | ⟨item, hitem, rfl⟩) | rfl
  · simp [hwidth, hheight]
  · have hclass : '\n' ∉ d.className := newline_notMem_deviceClass hname
    exact ⟨Item.line_ne_nil _ item, (oneLine_of_mem_items hitem).newline_notMem hclass⟩
  · simp

/-- The blocks of several devices are the paragraphs of the text they make up. -/
theorem paragraphs_mediaBlocks {ds : List Device} (hvalid : ∀ d ∈ ds, d.call.Valid) :
    Text.paragraphs (mediaBlocks ds) = ds.map mediaLines := by
  have hnewline : "\n".toList = ['\n'] := by simp
  have hmedia : ds.map media = (ds.map mediaLines).map Text.ofLines := by
    rw [List.map_map]
    exact List.map_congr_left fun d _ => media_eq d
  rw [mediaBlocks, hnewline, hmedia]
  refine Text.paragraphs_intercalate ?_ ?_
  · intro block hblock
    obtain ⟨d, -, rfl⟩ := List.mem_map.1 hblock
    simp [mediaLines]
  · intro block hblock line hline
    obtain ⟨d, hd, rfl⟩ := List.mem_map.1 hblock
    have hcall := hvalid d hd
    exact line_of_mem_mediaLines (hcall.name.notMem rfl) (hcall.width.notMem rfl)
      (hcall.height.notMem rfl) hline

/-- The block of a device is below the class of the device. -/
theorem scopedBy_mediaLines (d : Device) : ScopedBy d.className d.mediaLines := by
  refine ⟨d.query, d.items.map (Item.line d.className), rfl, fun line hline hend => ?_⟩
  obtain ⟨item, hitem, rfl⟩ := List.mem_map.1 hline
  obtain ⟨selector, rfl⟩ := (oneLine_of_mem_items hitem).exists_selector hend
  exact ⟨selector, rfl⟩

end Device

end DeviceSheet
