import DeviceSheet.Action
import DeviceSheet.Proofs.Walks

/-!
# What the requests do to a disk

A path *holds* a text if it leads to a file with that text.  These are the paths that can be
read (`Disk.read_eq_ok_iff`), and what they hold on a disk that grows is said by the entry at
their place (`Disk.Holds.grow`).  The requests that change a disk make it grow.

* Making directories adds directories and nothing else, even if it fails half way
  (`Disk.keeps_makeDirs`).  Where there is a directory, nothing is made
  (`Disk.makeDirs_of_hasDir`).
* Writing and appending change the bytes of one file, and the path leads to that file afterwards
  (`Disk.update_eq_ok`).
* Writing to a path that leads to nothing adds a file (`Disk.write_of_not_contains`).
* Appending to a file changes that file and nothing else (`Disk.Holds.append`).
-/

namespace DeviceSheet

namespace Text

/-- The bytes that can be decoded are those of a text. -/
theorem decode?_eq_some_iff {bytes : Bytes} {t : Text} :
    decode? bytes = some t ↔ bytes = t.encode := by
  constructor
  · intro h
    rw [decode?, Option.map_eq_some_iff] at h
    obtain ⟨s, hs, rfl⟩ := h
    rw [String.fromUTF8?] at hs
    split at hs
    · cases hs
      rw [encode, String.ofList_toList]
      rfl
    · cases hs
  · rintro rfl
    exact decode?_encode t

theorem encode_append (t u : Text) : encode (t ++ u) = t.encode ++ u.encode := by
  simp [encode, String.ofList_append]

theorem encode_injective {t u : Text} (h : t.encode = u.encode) : t = u := by
  have hdecode := decode?_encode t
  rw [h, decode?_encode] at hdecode
  exact (Option.some.inj hdecode).symm

end Text

namespace Disk

variable {d d' : Disk} {p : Path} {q : Place} {t : Text}

theorem Grows.start (h : d.Grows d') (p : Path) : d'.start p = d.start p := by
  simp only [Disk.start, h.home]

/-! ## Paths that hold a text -/

/-- The path leads to a place with a file, which has the given text. -/
def Holds (d : Disk) (p : Path) (q : Place) (t : Text) : Prop :=
  d.locate .find p = .ok ⟨q, some (.file t.encode)⟩

theorem Holds.get? (h : d.Holds p q t) : d.get? q = some (.file t.encode) :=
  (locate_eq_ok_iff.1 h).2.get?_eq (by simp)

/-- A path can be read if it holds a text. -/
theorem read_eq_ok_iff : d.read p = .ok t ↔ ∃ q, d.Holds p q t := by
  constructor
  · intro h
    unfold read at h
    split at h
    · cases h
    · cases h
    · next q bytes hlocate =>
      split at h
      · next t' hdecode =>
        cases h
        rw [Text.decode?_eq_some_iff.1 hdecode] at hlocate
        exact ⟨q, hlocate⟩
      · cases h
    · cases h
  · rintro ⟨q, h⟩
    rw [read, h]
    simp

/-- On a disk that has grown a path holds what the file at its place has now. -/
theorem Holds.grow {t' : Text} (h : d.Holds p q t) (hgrows : d.Grows d')
    (hget : d'.get? q = some (.file t'.encode)) : d'.Holds p q t' := by
  obtain ⟨hrefused, hleads⟩ := locate_eq_ok_iff.1 h
  refine locate_eq_ok_iff.2 ⟨hrefused, ?_⟩
  rw [hgrows.start]
  exact hleads.grow_file hgrows hget

theorem Holds.place? (h : d.Holds p q t) : d.place? p = some q := by
  unfold Holds at h
  rw [Disk.place?, h]

/-- On a disk that has grown a path leads where it led, whatever is there now. -/
theorem Grows.place? (hgrows : d.Grows d') (h : d.place? p = some q) : d'.place? p = some q := by
  unfold Disk.place? at h
  split at h
  · next entry hlocate =>
    cases h
    obtain ⟨hrefused, hleads⟩ := locate_eq_ok_iff.1 hlocate
    obtain ⟨entry', hleads'⟩ : ∃ entry',
        Leads d' .find maxLinks (d.start p) p.steps p.endsInSlash ⟨q, some entry'⟩ := by
      cases entry with
      | dir => exact ⟨.dir, hleads.grow_dir hgrows⟩
      | file bytes =>
        obtain ⟨bytes', hget⟩ := hgrows.file (hleads.get?_eq (by simp))
        exact ⟨.file bytes', hleads.grow_file hgrows hget⟩
      | link target => exact ⟨.dir, hleads.grow hgrows (by simp) (by simp)⟩
    rw [← hgrows.start] at hleads'
    rw [Disk.place?, locate_eq_ok_iff.2 ⟨hrefused, hleads'⟩]
  · cases h

theorem Holds.place?_of_grows (h : d.Holds p q t) (hgrows : d.Grows d') : d'.place? p = some q :=
  hgrows.place? h.place?

theorem Holds.extend (h : d.Holds p q t) (hextends : d.Extends d') : d'.Holds p q t :=
  h.grow hextends.grows (hextends.get? h.get?)

theorem Extends.read (hextends : d.Extends d') (h : d.read p = .ok t) : d'.read p = .ok t := by
  obtain ⟨q, hq⟩ := read_eq_ok_iff.1 h
  exact read_eq_ok_iff.2 ⟨q, hq.extend hextends⟩

/-! ## Directories -/

theorem hasDir_eq_true_iff : d.hasDir p = true ↔ ∃ q, d.locate .find p = .ok ⟨q, some .dir⟩ := by
  unfold hasDir
  split
  · next q h => exact ⟨fun _ => ⟨q, h⟩, fun _ => rfl⟩
  · next h => exact ⟨fun hfalse => (Bool.false_ne_true hfalse).elim, fun ⟨q, hq⟩ => (h q hq).elim⟩

/-- A path that leads to a directory leads there when the disk has grown. -/
theorem Grows.locate_dir (hgrows : d.Grows d') (h : d.locate .find p = .ok ⟨q, some .dir⟩) :
    d'.locate .find p = .ok ⟨q, some .dir⟩ := by
  obtain ⟨hrefused, hleads⟩ := locate_eq_ok_iff.1 h
  refine locate_eq_ok_iff.2 ⟨hrefused, ?_⟩
  rw [hgrows.start]
  exact hleads.grow_dir hgrows

theorem Grows.hasDir (hgrows : d.Grows d') (h : d.hasDir p = true) : d'.hasDir p = true := by
  obtain ⟨q, hq⟩ := hasDir_eq_true_iff.1 h
  exact hasDir_eq_true_iff.2 ⟨q, hgrows.locate_dir hq⟩

/-- The place of the last step of a path, when the steps before it lead to a directory. -/
theorem slot_of_leads {before : List Component} {last : Component} (hrefused : refused? p = none)
    (hsteps : p.steps = before ++ [last])
    (hbefore : Leads d .find maxLinks (d.start p) before true ⟨q, some .dir⟩) :
    d.slot p = match last with
      | .name n => if maxNameLength < n.byteLength then .error .nameTooLong
          else .ok (some (q ++ [n]))
      | _ => .ok none := by
  simp only [slot, hrefused, hsteps, List.dropLast_concat, walk_of_leads hbefore,
    List.getLast?_concat]
  cases last <;> rfl

/-- A directory cannot be made where a path leads to one. -/
theorem makeDir_of_hasDir (h : d.hasDir p = true) : d.makeDir p = .error .occupied := by
  obtain ⟨q, hq⟩ := hasDir_eq_true_iff.1 h
  obtain ⟨hrefused, hleads⟩ := locate_eq_ok_iff.1 hq
  rcases List.eq_nil_or_concat p.steps with hsteps | ⟨before, last, hsteps⟩
  · have hslot : d.slot p = .ok none := by
      simp [slot, hrefused, hsteps, walk_of_leads .done]
    rw [makeDir, hslot]
  · rw [List.concat_eq_append] at hsteps
    rw [hsteps] at hleads
    obtain ⟨around, left, hbefore, hlast⟩ := hleads.split (List.cons_ne_nil last [])
    have hslot := slot_of_leads hrefused hsteps (hbefore true)
    generalize p.endsInSlash = only at hlast
    cases hlast with
    | root | here | up => rw [makeDir, hslot]
    | dir _ hlength hget | link _ hlength hget =>
      simp [makeDir, hslot, Nat.not_lt.2 hlength, hget]

/-- A directory that is there need not be made. -/
theorem makeDirs_of_hasDir (h : d.hasDir p = true) : d.makeDirs p = (.ok (), d) := by
  have hne : p.text ≠ [] := by
    intro hempty
    simp [hasDir, locate, refused?, hempty] at h
  rw [makeDirs, makeDirsAlong, if_neg hne, makeDir_of_hasDir h]
  simp [h]

/-! ## Changes -/

theorem ne_nil_of_get? {entry : Option Entry} (h : d.get? q = entry) (hentry : entry ≠ some .dir) :
    q ≠ [] := by
  rintro rfl
  exact hentry h.symm

/-- What stands at a place below the root is among the entries. -/
theorem mem_entries_of_get? {entry : Entry} (hq : q ≠ []) (h : d.get? q = some entry) :
    (q, entry) ∈ d.entries := by
  obtain ⟨name, rest, rfl⟩ := List.exists_cons_of_ne_nil hq
  obtain ⟨before, after, hentries, -⟩ := List.lookup_eq_some_iff.1 h
  simp [hentries]

/-- An entry at a free place takes nothing away. -/
theorem Extends.insert (hget : d.get? q = none) (entry : Entry) :
    d.Extends (d.insert q entry) where
  home := rfl
  get? {q' entry'} hget' := by
    have hne : q' ≠ q := by
      rintro rfl
      rw [hget] at hget'
      cases hget'
    rw [get?_insert d (ne_nil_of_get? hget (by simp)), if_neg hne]
    exact hget'

/-- New bytes for a file keep all else. -/
theorem Grows.insert {bytes : Bytes} (hget : d.get? q = some (.file bytes)) (bytes' : Bytes) :
    d.Grows (d.insert q (.file bytes')) := by
  have hinsert := get?_insert d (ne_nil_of_get? hget (by simp)) (.file bytes')
  have hkeep : ∀ {q' entry}, d.get? q' = some entry → (∀ bytes, entry ≠ .file bytes) →
      (d.insert q (.file bytes')).get? q' = some entry := by
    intro q' entry hget' hentry
    have hne : q' ≠ q := by
      rintro rfl
      rw [hget] at hget'
      exact hentry bytes (Option.some.inj hget').symm
    rw [hinsert, if_neg hne]
    exact hget'
  refine ⟨rfl, fun h => hkeep h (by simp), fun h => hkeep h (by simp), fun {q' old} h => ?_⟩
  by_cases hq : q' = q
  · exact ⟨bytes', by rw [hinsert, if_pos hq]⟩
  · exact ⟨old, by rw [hinsert, if_neg hq, h]⟩

/-- Outside of some places the second disk has what the first has.  All it has more are
directories. -/
structure Keeps (d d' : Disk) (except : List Place) : Prop where
  home : d'.home = d.home
  get? : ∀ q ∉ except, d'.get? q = d.get? q ∨ d.get? q = none ∧ d'.get? q = some .dir

theorem Keeps.refl (d : Disk) : d.Keeps d [] := ⟨rfl, fun _ _ => .inl rfl⟩

theorem Keeps.trans {d'' : Disk} {except except' : List Place} (h : d.Keeps d' except)
    (h' : d'.Keeps d'' except') : d.Keeps d'' (except ++ except') where
  home := h'.home.trans h.home
  get? q hq := by
    rw [List.mem_append, not_or] at hq
    obtain ⟨hq, hq'⟩ := hq
    rcases h.get? q hq with hsame | ⟨hnone, hdir⟩ <;> rcases h'.get? q hq' with hsame' | hnew
    · exact .inl (hsame'.trans hsame)
    · exact .inr ⟨hsame ▸ hnew.1, hnew.2⟩
    · exact .inr ⟨hnone, hsame'.trans hdir⟩
    · exact .inr ⟨hnone, hnew.2⟩

/-- Nothing is taken away outside of the places. -/
theorem Keeps.get?_of_some {except : List Place} {entry : Entry} (h : d.Keeps d' except)
    (hq : q ∉ except) (hget : d.get? q = some entry) : d'.get? q = some entry := by
  rcases h.get? q hq with hsame | ⟨hnone, -⟩
  · exact hsame.trans hget
  · cases hnone.symm.trans hget

/-- Outside of the places the files and links of the two disks are the same. -/
theorem Keeps.get?_eq_some_iff {except : List Place} {entry : Entry} (h : d.Keeps d' except)
    (hq : q ∉ except) (hentry : entry ≠ .dir) :
    d'.get? q = some entry ↔ d.get? q = some entry := by
  rcases h.get? q hq with hsame | ⟨hnone, hdir⟩
  · rw [hsame]
  · rw [hnone, hdir]
    simp [Ne.symm hentry]

theorem Keeps.extends (h : d.Keeps d' []) : d.Extends d' :=
  ⟨h.home, h.get?_of_some List.not_mem_nil⟩

theorem Keeps.insert (hq : q ≠ []) (entry : Entry) : d.Keeps (d.insert q entry) [q] where
  home := rfl
  get? q' hq' := .inl (by rw [get?_insert d hq, if_neg (by simpa using hq')])

/-- One directory is made at a free place, in the directory that the steps before the last name
lead to. -/
theorem makeDir_eq_ok (h : d.makeDir p = .ok d') :
    ∃ q n, refused? p = none ∧ p.steps = p.steps.dropLast ++ [.name n] ∧
      n.byteLength ≤ maxNameLength ∧
      Leads d .find maxLinks (d.start p) p.steps.dropLast true ⟨q, some .dir⟩ ∧
      d.get? (q ++ [n]) = none ∧ d' = d.insert (q ++ [n]) .dir := by
  unfold makeDir at h
  split at h
  · cases h
  · cases h
  · next place hslot =>
    split at h
    · next hget =>
      cases h
      unfold slot at hslot
      split at hslot
      · cases hslot
      · next hrefused =>
        split at hslot
        · cases hslot
        · cases hslot
        · next q entry hwalk =>
          have hleads := leads_of_walk hwalk
          split at hslot
          · next n hlast =>
            split at hslot
            · cases hslot
            · next hlength =>
              cases hslot
              obtain ⟨front, hfront⟩ := List.getLast?_eq_some_iff.1 hlast
              cases hleads.eq_dir
              exact ⟨q, n, hrefused, by simp [hfront], Nat.not_lt.1 hlength, hleads, hget, rfl⟩
          · cases hslot
    · cases h

/-- The path leads to the directory that was made. -/
theorem locate_makeDir (h : d.makeDir p = .ok d') :
    ∃ q, d.get? q = none ∧ d' = d.insert q .dir ∧ d'.locate .find p = .ok ⟨q, some .dir⟩ := by
  obtain ⟨q, n, hrefused, hsteps, hlength, hleads, hfree, rfl⟩ := makeDir_eq_ok h
  have hgrows := (Extends.insert hfree .dir).grows
  have hinsert := get?_insert d (by simp : q ++ [n] ≠ []) .dir (q ++ [n])
  rw [if_pos rfl] at hinsert
  refine ⟨q ++ [n], hfree, rfl, locate_eq_ok_iff.2 ⟨hrefused, ?_⟩⟩
  rw [hgrows.start, hsteps]
  exact (hleads.grow_dir hgrows).append_name hlength hinsert

theorem keeps_makeDir (h : d.makeDir p = .ok d') : d.Keeps d' [] := by
  obtain ⟨place, hget, rfl, -⟩ := locate_makeDir h
  refine ⟨rfl, fun q _ => ?_⟩
  rw [get?_insert d (ne_nil_of_get? hget (by simp))]
  by_cases hq : q = place
  · exact .inr ⟨hq ▸ hget, if_pos hq⟩
  · exact .inl (if_neg hq)

/-- What holds from before one directory is made to after it holds for all that are made on the
way to a directory. -/
theorem makeDirsAlong_rel {R : Disk → Disk → Prop} (around : List Path) (refl : ∀ d, R d d)
    (trans : ∀ {d d' d''}, R d d' → R d' d'' → R d d'')
    (step : ∀ {d d' p}, p ∈ around → d.makeDir p = .ok d' → R d d') (d : Disk) :
    R d (d.makeDirsAlong around).2 := by
  induction around generalizing d with
  | nil => exact refl d
  | cons p around ih =>
    have hfirst : ∀ {d d'}, d.makeDir p = .ok d' → R d d' := step List.mem_cons_self
    rw [makeDirsAlong]
    split
    · exact refl d
    · split
      · next hmake => exact hfirst hmake
      · have haround := ih (fun hp => step (List.mem_cons_of_mem p hp)) d
        split
        · next hfail =>
          rw [hfail] at haround
          exact haround
        · next hdone =>
          rw [hdone] at haround
          split
          · next hmake => exact trans haround (hfirst hmake)
          · exact haround
      · exact refl d

/-- On the way to a directory only directories are made. -/
theorem keeps_makeDirs {answer : Except Fault Unit} (h : d.makeDirs p = (answer, d')) :
    d.Keeps d' [] := by
  have hkeeps := makeDirsAlong_rel (p :: p.parents) Keeps.refl Keeps.trans
    (fun _ => keeps_makeDir) d
  rw [← makeDirs, h] at hkeeps
  exact hkeeps

/-- A directory that was made is there. -/
theorem hasDir_makeDirs (hp : p.text ≠ []) (h : d.makeDirs p = (.ok (), d')) :
    d'.hasDir p = true := by
  have hmade : ∀ {d₁ d₂ : Disk}, d₁.makeDir p = .ok d₂ → d₂.hasDir p = true := by
    intro d₁ d₂ hmake
    obtain ⟨q, -, -, hlocate⟩ := locate_makeDir hmake
    exact hasDir_eq_true_iff.2 ⟨q, hlocate⟩
  rw [makeDirs, makeDirsAlong, if_neg hp] at h
  split at h
  · next hmake =>
    cases h
    exact hmade hmake
  · split at h
    · cases h
    · split at h
      · next hmake =>
        cases h
        exact hmade hmake
      · split at h
        · next hdir =>
          cases h
          exact hdir
        · cases h
  · split at h
    · next hdir =>
      cases h
      exact hdir
    · cases h

/-- The bytes of one file are changed.  It stood at its place before, or the place was free.  The
path leads to it from then on. -/
theorem update_eq_ok {change : Bytes → Bytes} (h : d.update p change = .ok d') :
    ∃ q bytes, q ≠ [] ∧
      (d.get? q = none ∧ bytes = [] ∨ d.place? p = some q ∧ d.get? q = some (.file bytes)) ∧
      d' = d.insert q (.file (change bytes)) ∧
      d'.locate .find p = .ok ⟨q, some (.file (change bytes))⟩ := by
  have hinsert : ∀ {q : Place} (bytes : Bytes), q ≠ [] →
      (d.insert q (.file bytes)).get? q = some (.file bytes) := by
    intro q bytes hne
    rw [get?_insert d hne, if_pos rfl]
  unfold update at h
  split at h
  · cases h
  · next q hlocate =>
    cases h
    obtain ⟨hrefused, hleads⟩ := locate_eq_ok_iff.1 hlocate
    have hget : d.get? q = none := hleads.get?_eq (by simp)
    have hne := ne_nil_of_get? hget (by simp)
    have hgrows := (Extends.insert hget (.file (change []))).grows
    refine ⟨q, [], hne, .inl ⟨hget, rfl⟩, rfl, locate_eq_ok_iff.2 ⟨hrefused, ?_⟩⟩
    rw [hgrows.start]
    exact hleads.fill hgrows (hinsert _ hne)
  · next q bytes hlocate =>
    cases h
    obtain ⟨hrefused, hleads⟩ := locate_eq_ok_iff.1 hlocate
    have hget : d.get? q = some (.file bytes) := hleads.get?_eq (by simp)
    have hfind : d.locate .find p = .ok ⟨q, some (.file bytes)⟩ :=
      locate_eq_ok_iff.2 ⟨hrefused, hleads.find⟩
    have hne := ne_nil_of_get? hget (by simp)
    have hgrows := Grows.insert hget (change bytes)
    refine ⟨q, bytes, hne, .inr ⟨by simp [place?, hfind], hget⟩, rfl,
      locate_eq_ok_iff.2 ⟨hrefused, ?_⟩⟩
    rw [hgrows.start]
    exact hleads.find.grow_file hgrows (hinsert _ hne)
  · cases h

theorem grows_update {change : Bytes → Bytes} (h : d.update p change = .ok d') : d.Grows d' := by
  obtain ⟨q, bytes, -, ⟨hget, -⟩ | ⟨-, hget⟩, rfl, -⟩ := update_eq_ok h
  · exact (Extends.insert hget _).grows
  · exact .insert hget _

theorem insertInto_of_lookup {entry : Entry} {entries : List (Place × Entry)}
    (h : entries.lookup q = some entry) : insertInto q entry entries = entries := by
  induction entries with
  | nil => cases h
  | cons head rest ih =>
    obtain ⟨q', old⟩ := head
    rw [List.lookup_cons] at h
    by_cases hsame : q' = q
    · subst hsame
      simp only [beq_self_eq_true, Option.some.injEq] at h
      rw [insertInto, if_pos rfl, h]
    · rw [beq_false_of_ne (Ne.symm hsame)] at h
      rw [insertInto, if_neg hsame, ih h]

/-- An entry that stands at its place already changes nothing. -/
theorem insert_of_get? {entry : Entry} (hq : q ≠ []) (h : d.get? q = some entry) :
    d.insert q entry = d := by
  cases q with
  | nil => exact absurd rfl hq
  | cons n q => rw [Disk.insert, insertInto_of_lookup h]

/-- A file that is given the bytes it has stays as it is. -/
theorem write_of_locate {bytes : Bytes} (h : d.locate .find p = .ok ⟨q, some (.file bytes)⟩) :
    d.write p bytes = .ok d := by
  obtain ⟨hrefused, hleads⟩ := locate_eq_ok_iff.1 h
  have hget : d.get? q = some (.file bytes) := hleads.get?_eq (by simp)
  have hcreate : d.locate .create p = .ok ⟨q, some (.file bytes)⟩ :=
    locate_eq_ok_iff.2 ⟨hrefused, hleads.create⟩
  rw [write, update, hcreate]
  exact congrArg Except.ok (insert_of_get? (ne_nil_of_get? hget (by simp)) hget)

/-- A file is made where a path leads to nothing.  The path holds its text from then on. -/
theorem write_of_not_contains (hfree : d.contains p = false) (h : d.write p t.encode = .ok d') :
    d.Extends d' ∧ d'.read p = .ok t := by
  obtain ⟨q, bytes, -, ⟨hget, -⟩ | ⟨hplace, -⟩, rfl, hlocate⟩ := update_eq_ok h
  · exact ⟨Extends.insert hget _, read_eq_ok_iff.2 ⟨q, hlocate⟩⟩
  · simp [contains, hplace] at hfree

/-- A file that is made longer keeps its bytes, and other files keep theirs. -/
theorem get?_of_append {bytes more : Bytes} (h : d.append p more = .ok d')
    (hget : d.get? q = some (.file bytes)) :
    d'.get? q = some (.file bytes) ∨
      d'.place? p = some q ∧ d'.get? q = some (.file (bytes ++ more)) := by
  obtain ⟨q', bytes', hne, hfile, rfl, hlocate⟩ := update_eq_ok h
  rw [get?_insert d hne]
  by_cases hq : q = q'
  · subst hq
    rcases hfile with ⟨hfree, -⟩ | ⟨-, hfile⟩
    · cases hfree.symm.trans hget
    · cases hfile.symm.trans hget
      exact .inr ⟨by simp [place?, hlocate], if_pos rfl⟩
  · exact .inl (by rw [if_neg hq, hget])

/-- A file is made longer. -/
theorem Holds.append (h : d.Holds p q t) (u : Text) :
    d.append p u.encode = .ok (d.insert q (.file (t ++ u).encode)) := by
  obtain ⟨hrefused, hleads⟩ := locate_eq_ok_iff.1 h
  have hcreate : d.locate .create p = .ok ⟨q, some (.file t.encode)⟩ :=
    locate_eq_ok_iff.2 ⟨hrefused, hleads.create⟩
  rw [Disk.append, update, hcreate, Text.encode_append]

/-- Every path to a file with new text holds that text. -/
theorem Holds.insert_same (h : d.Holds p q t) (t' : Text) :
    (d.insert q (.file t'.encode)).Holds p q t' := by
  refine h.grow (Grows.insert h.get? _) ?_
  rw [get?_insert d (ne_nil_of_get? h.get? (by simp)), if_pos rfl]

/-- Paths to other files hold what they held. -/
theorem Holds.insert_other {q' : Place} {bytes : Bytes} (h : d.Holds p q t)
    (hfile : d.get? q' = some (.file bytes)) (hne : q ≠ q') (bytes' : Bytes) :
    (d.insert q' (.file bytes')).Holds p q t := by
  refine h.grow (Grows.insert hfile _) ?_
  rw [get?_insert d (ne_nil_of_get? hfile (by simp)), if_neg hne]
  exact h.get?

end Disk

end DeviceSheet
