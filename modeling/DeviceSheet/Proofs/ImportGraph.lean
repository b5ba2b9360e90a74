import Mathlib.Data.List.Nodup
import DeviceSheet.Proofs.PlainExpansion

/-!
# What a failed expansion tells about the imports

The files of a disk and the directives in them form a graph.  An edge goes from a text
to every path that one of its directives asks for.  A *route* is a way through this
graph: it starts in a text and opens one file after the other.

A failure of the expander is a fact about this graph, and `Genuine` says which one.

* A file that cannot be read is asked for at the end of a route that is no longer than the
  limit allows.
* A cycle is one.  The file is reached from the top, and it is reached from its own text.
* An import that lies too deep stands at the end of a route that opens as many files as the
  limit allows, no two of them the same.

The expander knows its chain and its depth and not the route.  `Underway` ties them
together: every open file has a route from its own text to the text that is read now.  A
directive that is followed makes all of these routes one step longer, and the text after the
directive finds them as they were.
-/

namespace DeviceSheet

/-- A directive of the text asks for the path. -/
def AsksFor (base : Path) (text : Text) (path : Path) : Prop :=
  ∃ lexeme target, .directive lexeme target ∈ scan text ∧ path = base.join ⟨target⟩

/-- From the first text one file after the other is opened, each by a directive in the file before
it.  The second text is that of the last file. -/
inductive Route (d : Disk) (base : Path) : Text → (opened : List Path) → Text → Prop
  | here {text : Text} : Route d base text [] text
  | through {text inner last : Text} {path : Path} {opened : List Path}
      (hask : AsksFor base text path)
      (hread : d.read path = .ok inner)
      (hroute : Route d base inner opened last) :
      Route d base text (path :: opened) last

/-- The path is asked for in the text or in a file that a route from the text opens. -/
def Reaches (d : Disk) (base : Path) (text : Text) (path : Path) : Prop :=
  ∃ opened last, Route d base text opened last ∧ AsksFor base last path

/-- The failure says something true about the imports of the text. -/
inductive Genuine (d : Disk) (base : Path) (limit : UInt64) (top : Text) : Failure → Prop
  | unreadable {path : Path} {cause : Fault} {opened : List Path} {last : Text}
      (hroute : Route d base top opened last)
      (hask : AsksFor base last path)
      (hlength : opened.length + 1 ≤ limit.toNat)
      (hread : d.read path = .error cause) :
      Genuine d base limit top (.importUnreadable path cause)
  | cycle {path : Path} {text : Text}
      (hreach : Reaches d base top path)
      (hread : d.read path = .ok text)
      (hback : Reaches d base text path) :
      Genuine d base limit top (.importCycle path)
  /-- The opened files lie at different places. -/
  | tooDeep {path : Path} {opened : List Path} {last : Text}
      (hroute : Route d base top opened last)
      (hask : AsksFor base last path)
      (hlength : opened.length = limit.toNat)
      (hreadable : ∀ p ∈ opened, ∃ text, d.read p = .ok text)
      (hdistinct : (opened.map d.place?).Nodup) :
      Genuine d base limit top (.importTooDeep path limit)

variable {d : Disk} {base : Path} {limit : UInt64} {chain : List Identity} {opened : List Path}
  {top text inner last : Text} {path : Path}

/-! ## Routes -/

theorem Route.push (h : Route d base top opened text) (hask : AsksFor base text path)
    (hread : d.read path = .ok inner) : Route d base top (opened ++ [path]) inner := by
  induction h with
  | here => exact .through hask hread .here
  | through hask' hread' _ ih => exact .through hask' hread' (ih hask)

theorem Route.readable (h : Route d base top opened last) {p : Path} (hp : p ∈ opened) :
    ∃ text, d.read p = .ok text := by
  induction h with
  | here => simp at hp
  | @through _ text _ _ _ _ hread _ ih =>
    rcases List.mem_cons.1 hp with rfl | hp
    · exact ⟨text, hread⟩
    · exact ih hp

/-! ## The files that are open -/

/-- The expander has come from `top` through the files of `opened` to `text`, and `chain` holds the
files that are open.  The file at the top is on the chain if there is one. -/
structure Underway (d : Disk) (base : Path) (top : Text) (chain : List Identity)
    (opened : List Path) (text : Text) : Prop where
  route : Route d base top opened text
  /-- What was opened is on the chain. -/
  onChain : ∀ p ∈ opened, d.identity p ∈ chain
  /-- Every open file has a route to the text that is read now. -/
  back : ∀ file ∈ chain, ∃ p own between,
    file = d.identity p ∧ d.read p = .ok own ∧ Route d base own between text
  distinct : (opened.map d.place?).Nodup

theorem Underway.ofText (d : Disk) (base : Path) (top : Text) :
    Underway d base top [] [] top where
  route := .here
  onChain := by simp
  back := by simp
  distinct := by simp

theorem Underway.ofFile (base : Path) (hread : d.read path = .ok top) :
    Underway d base top [d.identity path] [] top where
  route := .here
  onChain := by simp
  back := by
    intro file hfile
    rw [List.mem_singleton] at hfile
    exact ⟨path, top, [], hfile, hread, .here⟩
  distinct := by simp

/-- A file that is not on the chain lies at another place than the files that are. -/
theorem Underway.place_notMem (h : Underway d base top chain opened text)
    (hclosed : chain.any (d.identity path).same = false) :
    d.place? path ∉ opened.map d.place? := by
  intro hmem
  obtain ⟨p, hp, heq⟩ := List.mem_map.1 hmem
  obtain ⟨own, hown⟩ := h.route.readable hp
  obtain ⟨place, _, hplace, _⟩ := Disk.exists_place_of_read hown
  have hsame : d.identity p = d.identity path := by
    simp [Disk.identity, ← heq, hplace]
  rw [List.any_eq_false] at hclosed
  apply hclosed (d.identity p) (h.onChain p hp)
  rw [hsame]
  exact Identity.same_self _

/-- One more file is opened. -/
theorem Underway.push (h : Underway d base top chain opened text) (hask : AsksFor base text path)
    (hread : d.read path = .ok inner)
    (hclosed : chain.any (d.identity path).same = false) :
    Underway d base top (chain ++ [d.identity path]) (opened ++ [path]) inner where
  route := h.route.push hask hread
  onChain := by
    intro p hp
    rw [List.mem_append, List.mem_singleton] at hp ⊢
    rcases hp with hp | rfl
    · exact Or.inl (h.onChain p hp)
    · exact Or.inr rfl
  back := by
    intro file hfile
    rw [List.mem_append, List.mem_singleton] at hfile
    rcases hfile with hfile | rfl
    · obtain ⟨p, own, between, hp, hown, hroute⟩ := h.back file hfile
      exact ⟨p, own, between ++ [path], hp, hown, hroute.push hask hread⟩
    · exact ⟨path, inner, [], rfl, hread, .here⟩
  distinct := by
    rw [List.map_append, List.map_singleton, ← List.concat_eq_append]
    exact h.distinct.concat (h.place_notMem hclosed)

/-- A file on the chain that is asked for again is on a cycle. -/
theorem Underway.cycle (h : Underway d base top chain opened text) (hask : AsksFor base text path)
    (hread : d.read path = .ok inner) (hopen : chain.any (d.identity path).same = true) :
    Genuine d base limit top (.importCycle path) := by
  obtain ⟨file, hfile, hsame⟩ := List.any_eq_true.1 hopen
  obtain ⟨p, own, between, rfl, hown, hroute⟩ := h.back file hfile
  -- the file was opened under another spelling, and has one text under both
  obtain rfl := Disk.read_eq_of_same hread hown hsame
  exact .cycle ⟨opened, text, h.route, hask⟩ hread ⟨between, text, hroute, hask⟩

/-! ## Failures -/

/-- The first of some tokens of a text is a directive. -/
theorem asksFor_of_head {lexeme target : Text} {rest : List Token}
    (h : ∀ token ∈ Token.directive lexeme target :: rest, token ∈ scan text) :
    AsksFor base text (base.join ⟨target⟩) :=
  ⟨lexeme, target, h _ List.mem_cons_self, rfl⟩

/-- A failure in the tokens of the text that is read now is genuine from the top. -/
theorem ComesTo.genuine {depth : Nat} {tokens : List Token} {failure : Failure}
    (h : ComesTo d base limit chain depth tokens (.error failure))
    (hunder : Underway d base top chain opened text) (hdepth : depth = opened.length)
    (htokens : ∀ token ∈ tokens, token ∈ scan text)
    (hlimit : depth ≤ limit.toNat) :
    Genuine d base limit top failure := by
  generalize hresult : Except.error failure = result at h
  induction h generalizing opened text with
  | nil => cases hresult
  | @keep _ _ _ _ result _ _ ih =>
    cases result with
    | ok after => cases hresult
    | error failure' =>
      cases hresult
      exact ih hunder hdepth (fun t ht => htokens t (List.mem_cons_of_mem _ ht)) hlimit rfl
  | tooDeep hdeep =>
    cases hresult
    exact .tooDeep hunder.route (asksFor_of_head htokens) (by omega)
      (fun p hp => hunder.route.readable hp) hunder.distinct
  | unreadable hlt hread =>
    cases hresult
    exact .unreadable hunder.route (asksFor_of_head htokens) (by omega) hread
  | cycle hlt hread hopen =>
    cases hresult
    exact hunder.cycle (asksFor_of_head htokens) hread hopen
  | fail hlt hread hclosed _ ih =>
    cases hresult
    have hpush := hunder.push (asksFor_of_head htokens) hread hclosed
    exact ih hpush (by simp [hdepth]) (fun _ ht => ht) hlt rfl
  | @inline _ _ _ _ _ _ _ result _ _ _ _ _ _ ihrest =>
    cases result with
    | ok after => cases hresult
    | error failure' =>
      cases hresult
      exact ihrest hunder hdepth (fun t ht => htokens t (List.mem_cons_of_mem _ ht)) hlimit rfl

namespace Expander

theorem genuine_of_resolve {failure : Failure}
    (h : ((job { base := base, limit := limit } (resolve top)).run d).value = .error failure) :
    Genuine d base limit top failure := by
  have hcomes := comesTo_resolve d base limit top
  rw [h] at hcomes
  exact hcomes.genuine (Underway.ofText d base top) rfl (fun _ ht => ht) (Nat.zero_le _)

theorem genuine_of_resolveFile {failure : Failure} (hread : d.read path = .ok top)
    (h : ((job { base := base, limit := limit } (resolveFile path)).run d).value =
      .error failure) : Genuine d base limit top failure := by
  have hcomes := comesTo_resolveFile base limit hread
  rw [h] at hcomes
  exact hcomes.genuine (Underway.ofFile base hread) rfl (fun _ ht => ht) (Nat.zero_le _)

/-- Whatever a fresh expander fails with is genuine, for a text and for a file that can be
read. -/
theorem resolve_failure_genuine (d : Disk) (base : Path) (limit : UInt64) (failure : Failure) :
    (∀ s, ((job { base := base, limit := limit } (resolve s)).run d).value = .error failure →
      Genuine d base limit s failure) ∧
    (∀ f, ((job { base := base, limit := limit } (resolveFile f)).run d).value = .error failure →
      (∃ cause, d.read f = .error cause ∧ failure = .sourceUnreadable f cause) ∨
      (∃ s, d.read f = .ok s ∧ Genuine d base limit s failure)) := by
  refine ⟨fun s => genuine_of_resolve, ?_⟩
  intro f h
  cases hread : d.read f with
  | ok s => exact Or.inr ⟨s, rfl, genuine_of_resolveFile hread h⟩
  | error cause =>
    have hrun := looks_resolveFile_unreadable (x := { base := base, limit := limit }) hread
    rw [hrun.job.1] at h
    cases h
    exact Or.inl ⟨cause, rfl, rfl⟩

/-- Two files import each other, one of them under another spelling.  From the first file this is a
cycle.  From a text it is one as well, unless the limit is met before or the file is missing. -/
theorem resolve_failure_genuine_ring :
    let first := "@import \"b\";".toList
    let d : Disk := ⟨[([['a']], .file (Text.encode first)),
      ([['b']], .file (Text.encode "@import \"./a\";".toList))], []⟩
    let base : Path := ⟨"/".toList⟩
    let cycle := Failure.importCycle ⟨"/./a".toList⟩
    let deep := Failure.importTooDeep ⟨"/./a".toList⟩ 1
    let missing := Failure.importUnreadable ⟨"/c".toList⟩ .missing
    (((job { base := base, limit := 64 } (resolveFile ⟨"/a".toList⟩)).run d).value =
        .error cycle ∧ ∃ s, d.read ⟨"/a".toList⟩ = .ok s ∧ Genuine d base 64 s cycle) ∧
    (((job { base := base, limit := 1 } (resolve first)).run d).value = .error deep ∧
      Genuine d base 1 first deep) ∧
    (((job { base := base, limit := 64 } (resolve "@import \"c\";".toList)).run d).value =
        .error missing ∧ Genuine d base 64 "@import \"c\";".toList missing) := by
  intro first d base cycle deep missing
  have hcycle : ((job { base := base, limit := 64 } (resolveFile ⟨"/a".toList⟩)).run d).value =
      .error cycle := by decide +kernel
  have hdeep : ((job { base := base, limit := 1 } (resolve first)).run d).value =
      .error deep := by decide +kernel
  have hmissing : ((job { base := base, limit := 64 }
      (resolve "@import \"c\";".toList)).run d).value = .error missing := by decide +kernel
  refine ⟨⟨hcycle, ?_⟩, ⟨hdeep, (resolve_failure_genuine d base 1 deep).1 first hdeep⟩,
    ⟨hmissing, (resolve_failure_genuine d base 64 missing).1 _ hmissing⟩⟩
  rcases (resolve_failure_genuine d base 64 cycle).2 _ hcycle with ⟨_, _, hsource⟩ | hgenuine
  · simp [cycle] at hsource
  · exact hgenuine

end Expander

end DeviceSheet
