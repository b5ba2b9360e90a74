import DeviceSheet.Proofs.MediaBlocks
import DeviceSheet.Proofs.Trimming

/-!
# Braces

A body is rewritten line by line, without any regard to how its rules are nested.  The braces of the
text come through all the same, in order: a header loses its brace and gets it back, a line with a
lone closing brace is written anew, and what is trimmed off a line has no braces in it
(`Item.braces_render`).  A media block adds one brace before the body and one behind it
(`Device.braces_media`).

The *depth* of a text is the number of braces that it leaves open.  If no body closes more than it
has opened, and each leaves none open, then the blocks are told apart by their braces alone
(`Device.braces_mediaBlocks`).
-/

namespace DeviceSheet

/-! ## Braces and depth -/

/-- An opening or a closing brace. -/
def isBrace (c : Char) : Bool := c = '\x7b' || c = '\x7d'

namespace Text

/-- The braces of a text, in order. -/
def braces (t : Text) : Text := t.filter isBrace

/-- The number of braces that a text leaves open. -/
def depth (t : Text) : Int := t.count '\x7b' - t.count '\x7d'

/-- The text closes no more braces than it has opened, and it leaves none open. -/
structure Balanced (t : Text) : Prop where
  depth_nonneg : ∀ p : Text, p <+: t → 0 ≤ p.depth
  depth_eq : t.depth = 0

instance decidableBalanced (t : Text) : Decidable t.Balanced :=
  decidable_of_iff ((∀ i < t.length + 1, 0 ≤ depth (t.take i)) ∧ t.depth = 0)
    ⟨fun h => ⟨fun p hp => by
        rw [List.prefix_iff_eq_take.1 hp]
        exact h.1 p.length (Nat.lt_succ_of_le hp.length_le), h.2⟩,
      fun h => ⟨fun i _ => h.depth_nonneg _ (List.take_prefix i t), h.depth_eq⟩⟩

@[simp] theorem braces_append (t u : Text) : braces (t ++ u) = t.braces ++ u.braces :=
  List.filter_append t u

theorem braces_flatMap {α : Type} (as : List α) (f : α → Text) :
    braces (as.flatMap f) = as.flatMap fun a => braces (f a) :=
  List.filter_flatMap

@[simp] theorem depth_append (t u : Text) : depth (t ++ u) = t.depth + u.depth := by
  simp only [depth, List.count_append]
  omega

/-- Only the braces of a text matter for its depth. -/
@[simp] theorem depth_braces (t : Text) : t.braces.depth = t.depth := by
  rw [depth, braces, List.count_filter rfl, List.count_filter rfl, depth]

/-- Only the braces of a text matter for its balance. -/
theorem balanced_braces {t : Text} : t.braces.Balanced ↔ t.Balanced := by
  constructor
  · intro h
    refine ⟨fun p hp => ?_, by rw [← depth_braces, h.depth_eq]⟩
    rw [← depth_braces]
    exact h.depth_nonneg _ (hp.filter isBrace)
  · intro h
    refine ⟨fun p hp => ?_, by rw [depth_braces, h.depth_eq]⟩
    obtain ⟨front, hfront, rfl⟩ := List.prefix_filter_iff.1 hp
    change 0 ≤ depth (braces front)
    rw [depth_braces]
    exact h.depth_nonneg front hfront

theorem balanced_nil : Balanced [] := by
  refine ⟨fun p hp => ?_, rfl⟩
  rw [List.prefix_nil.1 hp]
  exact Int.le_refl 0

theorem Balanced.append {t u : Text} (ht : t.Balanced) (hu : u.Balanced) : Balanced (t ++ u) := by
  refine ⟨?_, by rw [depth_append, ht.depth_eq, hu.depth_eq]; rfl⟩
  rintro p ⟨rest, hp⟩
  rcases List.append_eq_append_iff.1 hp with ⟨more, rfl, -⟩ | ⟨front, rfl, rfl⟩
  · exact ht.depth_nonneg p (List.prefix_append p more)
  · rw [depth_append, ht.depth_eq]
    have := hu.depth_nonneg front (List.prefix_append front rest)
    omega

theorem Balanced.flatMap {α : Type} {as : List α} {f : α → Text}
    (h : ∀ a ∈ as, (f a).Balanced) : Balanced (as.flatMap f) := by
  induction as with
  | nil => exact balanced_nil
  | cons a as ih =>
    rw [List.forall_mem_cons] at h
    rw [List.flatMap_cons]
    exact h.1.append (ih h.2)

/-- Two braces around a text keep it balanced. -/
theorem Balanced.enclose {t : Text} (h : t.Balanced) : Balanced ('\x7b' :: t ++ ['\x7d']) := by
  have hopen : ∀ u : Text, depth ('\x7b' :: u) = 1 + u.depth := fun u => depth_append ['\x7b'] u
  have htotal : depth ('\x7b' :: t ++ ['\x7d']) = 0 := by
    rw [depth_append, hopen, h.depth_eq]
    rfl
  refine ⟨fun p hp => ?_, htotal⟩
  rcases List.prefix_concat_iff.1 hp with rfl | hp
  · exact Int.le_of_eq htotal.symm
  · rcases List.prefix_cons_iff.1 hp with rfl | ⟨front, rfl, hfront⟩
    · exact Int.le_refl 0
    · rw [hopen]
      have := h.depth_nonneg front hfront
      omega

/-! ## Braces of lines -/

theorem isBrace_of_isSpace {c : Char} (h : isSpace c = true) : isBrace c = false := by
  rw [isBrace, Bool.or_eq_false_iff, decide_eq_false_iff_not, decide_eq_false_iff_not]
  constructor
  · rintro rfl
    cases h
  · rintro rfl
    cases h

/-- There are no braces among spaces. -/
theorem braces_of_over {t : Text} (h : t.Over isSpace) : t.braces = [] :=
  List.filter_eq_nil_iff.2 fun c hc => by simp [isBrace_of_isSpace (h c hc)]

/-- No brace is trimmed off. -/
theorem braces_trim (t : Text) : t.trim.braces = t.braces := by
  obtain ⟨before, after, ht, hbefore, -, hafter⟩ := exists_trim t
  have hall := congrArg braces ht
  rw [braces_append, braces_append, braces_of_over hbefore, braces_of_over hafter, List.nil_append,
    List.append_nil] at hall
  exact hall.symm

theorem braces_trimEnd (t : Text) : t.trimEnd.braces = t.braces := by
  rw [← braces_trim, trim_trimEnd, braces_trim]

theorem braces_dropReturn (t : Text) : t.dropReturn.braces = t.braces := by
  rw [← braces_trim, trim_dropReturn, braces_trim]

theorem braces_intercalate (ls : List Text) :
    braces (['\n'].intercalate ls) = ls.flatMap braces := by
  cases ls with
  | nil => rfl
  | cons first others =>
    rw [intercalate_cons, braces_append, braces_flatMap, List.flatMap_cons]
    rfl

/-- The lines of a text have its braces. -/
theorem braces_lines (t : Text) : t.lines.flatMap braces = t.braces := by
  obtain ⟨ended, last, hpieces, hlines⟩ := exists_pieces t
  have hended : (ended.map dropReturn).flatMap braces = ended.flatMap braces := by
    rw [List.flatMap_map]
    congr 1
    exact funext braces_dropReturn
  have hlast : (if last = [] then [] else [last]).flatMap braces = [last].flatMap braces := by
    split
    · next hempty =>
      rw [hempty]
      rfl
    · rfl
  rw [hlines, List.flatMap_append, hended, hlast, ← List.flatMap_append, ← hpieces,
    ← braces_intercalate, List.intercalate_splitOn]

end Text

/-! ## Braces of media blocks -/

/-- The line of an item has the braces of the line that the item comes from. -/
theorem Item.braces_render {scope : Text} (hscope : scope.braces = []) (line : Text) :
    Text.braces ((Item.ofLine line).render scope) = line.braces := by
  rw [← Text.braces_trim line]
  simp only [ofLine]
  generalize line.trim = trimmed
  split
  · next hlast =>
    obtain ⟨before, rfl⟩ := List.getLast?_eq_some_iff.1 hlast
    have hbefore : Text.braces (Text.trimEnd before) = Text.braces before :=
      Text.braces_trimEnd before
    unfold render
    rw [List.dropLast_concat]
    simp only [Text.braces_append, hscope, hbefore]
    rfl
  · split
    · next hclose =>
      rw [hclose]
      rfl
    · have hindent : Text.braces "    ".toList = [] := rfl
      have hend : Text.braces "\n".toList = [] := rfl
      unfold render
      simp only [Text.braces_append, hindent, hend, List.nil_append, List.append_nil]

/-- There are no braces in the parts of the call. -/
structure DeviceCall.BraceFree (call : DeviceCall) : Prop where
  name : call.name.braces = []
  width : call.width.braces = []
  height : call.height.braces = []

namespace Device

/-- The first line of the media block of a device. -/
def opening (d : Device) : Text := "@media ".toList ++ d.query ++ " \x7b\n".toList

/-- The lines of the media block that come from the body. -/
def inner (d : Device) : Text := d.items.flatMap (Item.render d.className)

theorem media_eq_append (d : Device) : d.media = d.opening ++ d.inner ++ "\x7d\n".toList := by
  unfold media opening query inner
  simp

variable {d : Device}

theorem braces_opening (h : d.call.BraceFree) : d.opening.braces = ['\x7b'] := by
  unfold opening query
  simp only [Text.braces_append, h.width, h.height]
  rfl

/-- The braces of a body are the braces within its block. -/
theorem braces_inner (h : d.call.BraceFree) : d.inner.braces = d.body.braces := by
  have hclass : d.className.braces = [] := by
    unfold className deviceClass
    rw [Text.braces_append, h.name]
    rfl
  rw [inner, Text.braces_flatMap, items, List.flatMap_map, ← Text.braces_lines d.body]
  congr 1
  exact funext (Item.braces_render hclass)

theorem braces_media (h : d.call.BraceFree) :
    d.media.braces = '\x7b' :: d.body.braces ++ ['\x7d'] := by
  rw [media_eq_append, Text.braces_append, Text.braces_append, braces_opening h, braces_inner h]
  rfl

/-- The block of a balanced body is balanced. -/
theorem balanced_media (h : d.call.BraceFree) (hbody : d.body.Balanced) : d.media.Balanced := by
  rw [← Text.balanced_braces, braces_media h]
  exact (Text.balanced_braces.2 hbody).enclose

/-- The blocks of devices, with an empty line behind each. -/
def above (ds : List Device) : Text := ds.flatMap fun d => d.media ++ "\n".toList

/-- The blocks of devices, with an empty line before each. -/
def below (ds : List Device) : Text := ds.flatMap fun d => "\n".toList ++ d.media

/-- One of several blocks, with what stands above and below it. -/
theorem mediaBlocks_append_cons (before : List Device) (d : Device) (after : List Device) :
    mediaBlocks (before ++ d :: after) =
      above before ++ (d.opening ++ d.inner ++ "\x7d\n".toList ++ below after) := by
  rw [mediaBlocks, List.map_append, List.map_cons, Text.intercalate_append_cons, List.flatMap_map,
    List.flatMap_map, media_eq_append d]
  rfl

variable {ds : List Device}

theorem braces_blocks (hfree : ∀ d ∈ ds, d.call.BraceFree) :
    (mediaBlocks ds).braces = ds.flatMap fun d => '\x7b' :: d.body.braces ++ ['\x7d'] := by
  have hnewline : "\n".toList = ['\n'] := by simp
  rw [mediaBlocks, hnewline, Text.braces_intercalate, List.flatMap_map, List.flatMap_def,
    List.flatMap_def]
  exact congrArg List.flatten (List.map_congr_left fun d hd => braces_media (hfree d hd))

theorem balanced_above_below (hmedia : ∀ d ∈ ds, d.media.Balanced) :
    (above ds).Balanced ∧ (below ds).Balanced := by
  have hbreak : Text.Balanced "\n".toList := Text.balanced_braces.1 Text.balanced_nil
  exact ⟨.flatMap fun d hd => (hmedia d hd).append hbreak,
    .flatMap fun d hd => hbreak.append (hmedia d hd)⟩

/-- Within the lines of a balanced body at least the brace of its own block is open. -/
theorem one_le_depth (hfree : d.call.BraceFree) (hbody : d.body.Balanced) {front p : Text}
    (hfront : front.Balanced) (hp : p <+: d.inner) : 1 ≤ Text.depth (front ++ d.opening ++ p) := by
  have hinner : d.inner.Balanced := by
    rw [← Text.balanced_braces, braces_inner hfree, Text.balanced_braces]
    exact hbody
  have hopening : d.opening.depth = 1 := by
    rw [← Text.depth_braces, braces_opening hfree]
    rfl
  rw [Text.depth_append, Text.depth_append, hfront.depth_eq, hopening]
  have := hinner.depth_nonneg p hp
  omega

/-- Rewriting keeps the braces of the bodies in order, and puts one before each body and one behind
it.  If every body is balanced, so is the whole text.  Then each body is within the braces of its
own block all along, and what stands above and below the block is balanced for itself. -/
theorem braces_mediaBlocks (ds : List Device) (hfree : ∀ d ∈ ds, d.call.BraceFree) :
    (mediaBlocks ds).braces = ds.flatMap (fun d => '\x7b' :: d.body.braces ++ ['\x7d']) ∧
    ((∀ d ∈ ds, d.body.Balanced) → (mediaBlocks ds).Balanced ∧
      ∀ before d after, ds = before ++ d :: after →
        mediaBlocks ds = above before ++ (d.opening ++ d.inner ++ "\x7d\n".toList ++ below after) ∧
        d.inner.braces = d.body.braces ∧
        (above before).Balanced ∧ d.media.Balanced ∧ (below after).Balanced ∧
        ∀ p, p <+: d.inner → 1 ≤ Text.depth (above before ++ d.opening ++ p)) := by
  refine ⟨braces_blocks hfree, fun hbodies => ⟨?_, ?_⟩⟩
  · rw [← Text.balanced_braces, braces_blocks hfree]
    exact .flatMap fun d hd => (Text.balanced_braces.2 (hbodies d hd)).enclose
  · rintro before d after rfl
    have hmedia : ∀ d' ∈ before ++ d :: after, d'.media.Balanced := fun d' hd' =>
      balanced_media (hfree d' hd') (hbodies d' hd')
    have hd : d ∈ before ++ d :: after := by simp
    have habove := (balanced_above_below fun d' hd' => hmedia d' (List.mem_append_left _ hd')).1
    have hbelow := (balanced_above_below fun d' hd' =>
      hmedia d' (List.mem_append_right before (List.mem_cons_of_mem d hd'))).2
    exact ⟨mediaBlocks_append_cons before d after, braces_inner (hfree d hd), habove, hmedia d hd,
      hbelow, fun p hp => one_le_depth (hfree d hd) (hbodies d hd) habove hp⟩

/-- The lines of the first body open and close rules in every way but the usual one. -/
theorem braces_mediaBlocks_tangled :
    let tangled : Device := ⟨⟨"a".toList, "1px".toList, "2px".toList⟩,
      "\x7b\n\x7d \x7b\r\na \x7b b \x7b\n\x7d\x7d\n  \x7d /* x */".toList⟩
    let single : Device := ⟨⟨"b".toList, "3".toList, "4%".toList⟩, "c\x7b\x7d".toList⟩
    let ds : List Device := [tangled, single]
    ((∀ d ∈ ds, d.call.BraceFree) ∧ ∀ d ∈ ds, d.body.Balanced) ∧
      (mediaBlocks ds).braces =
        "\x7b\x7b\x7d\x7b\x7b\x7b\x7d\x7d\x7d\x7d\x7b\x7b\x7d\x7d".toList ∧
      (mediaBlocks ds).Balanced ∧
      ∀ p, p <+: single.inner → 1 ≤ Text.depth (above [tangled] ++ single.opening ++ p) := by
  intro tangled single ds
  have hfree : ∀ d ∈ ds, d.call.BraceFree :=
    List.forall_mem_cons.2 ⟨⟨rfl, rfl, rfl⟩, List.forall_mem_singleton.2 ⟨rfl, rfl, rfl⟩⟩
  have hbodies : ∀ d ∈ ds, d.body.Balanced := by decide +kernel
  obtain ⟨hbraces, hbalanced⟩ := braces_mediaBlocks ds hfree
  obtain ⟨hwhole, hblocks⟩ := hbalanced hbodies
  obtain ⟨-, -, -, -, -, hdepth⟩ := hblocks [tangled] single [] rfl
  exact ⟨⟨hfree, hbodies⟩, hbraces, hwhole, hdepth⟩

end Device

end DeviceSheet
