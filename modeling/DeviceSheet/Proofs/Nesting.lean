import Mathlib.Data.List.Dedup
import Mathlib.Data.List.Perm.Subperm
import DeviceSheet.Proofs.ImportGraph
import DeviceSheet.Proofs.Reuse

/-!
# Imports nest no deeper than there are files

A file that is open is not opened again.  So no more files are open at one time than the
disk holds, and a limit above that number is never met.  What has no end is then
found out as a cycle, or it fails before because a file cannot be read.

The number is `Disk.files`, counted by place.  Links and directories do not count, and a file
counts once for all of its spellings.
-/

namespace DeviceSheet

/-! ## The files of a disk -/

/-- Is there a file at the place? -/
def Disk.hasFileAt (d : Disk) (place : Place) : Bool :=
  match d.get? place with
  | some (.file _) => true
  | _ => false

/-- The places of all files. -/
def Disk.files (d : Disk) : List Place := (d.entries.map Prod.fst).dedup.filter d.hasFileAt

theorem Disk.mem_files {d : Disk} {place : Place} :
    place ∈ d.files ↔ ∃ bytes, d.get? place = some (.file bytes) := by
  constructor
  · intro h
    have hfile := (List.mem_filter.1 h).2
    unfold hasFileAt at hfile
    split at hfile
    · next bytes hget => exact ⟨bytes, hget⟩
    · cases hfile
  · intro ⟨bytes, hget⟩
    refine List.mem_filter.2 ⟨?_, by simp [hasFileAt, hget]⟩
    rw [List.mem_dedup]
    cases place with
    | nil => cases hget
    | cons name rest =>
      obtain ⟨before, after, hsplit, -⟩ := List.lookup_eq_some_iff.1 hget
      simp [hsplit]

/-- There are no more different things than files if each stands for a file. -/
theorem Disk.length_le_files {d : Disk} {α : Type} (tag : Place → α) {tagged : List α}
    (hnodup : tagged.Nodup)
    (hfiles : ∀ a ∈ tagged, ∃ place bytes, a = tag place ∧ d.get? place = some (.file bytes)) :
    tagged.length ≤ d.files.length := by
  have hsubset : tagged ⊆ d.files.map tag := by
    intro a ha
    obtain ⟨place, bytes, rfl, hget⟩ := hfiles a ha
    exact List.mem_map_of_mem (mem_files.2 ⟨bytes, hget⟩)
  simpa using (hnodup.subperm hsubset).length_le

variable {d : Disk} {base : Path} {limit : UInt64} {top last r : Text} {opened : List Path}
  {tokens : List Token} {height : Nat}

/-- There are at least as many files as are open. -/
theorem Orderly.length_le_files {x : Expander} (h : Orderly d limit x) :
    x.chain.length ≤ d.files.length :=
  Disk.length_le_files .at h.nodup h.files

/-- A limit above the number of files is not met. -/
theorem Genuine.not_tooDeep {path : Path} {limit' : UInt64}
    (h : Genuine d base limit top (.importTooDeep path limit')) :
    limit.toNat ≤ d.files.length := by
  cases h with
  | @tooDeep _ opened _ _ _ hlength hreadable hdistinct =>
    rw [← hlength, ← List.length_map d.place?]
    refine Disk.length_le_files some hdistinct ?_
    intro place? hplace
    obtain ⟨p, hp, rfl⟩ := List.mem_map.1 hplace
    obtain ⟨text, hread⟩ := hreadable p hp
    obtain ⟨place, bytes, hplace, hget, -⟩ := Disk.exists_place_of_read hread
    exact ⟨place, bytes, hplace, hget⟩

/-! ## Imports without an end -/

/-- There are routes of any length: the imports of the text do not come to an end. -/
def Endless (d : Disk) (base : Path) (top : Text) : Prop :=
  ∀ n, ∃ opened last, Route d base top opened last ∧ n ≤ opened.length

/-- A file that is asked for is expanded with less height. -/
theorem Expands.of_mem (h : Expands d base tokens r height) {lexeme target text : Text}
    (hmem : .directive lexeme target ∈ tokens) (hread : d.read (base.join ⟨target⟩) = .ok text) :
    ∃ inlined inner, Expands d base (scan text) inlined inner ∧ inner < height := by
  induction h with
  | nil => simp at hmem
  | keep htoken _ ih =>
    rcases List.mem_cons.1 hmem with rfl | hmem
    · cases htoken
    · exact ih hmem
  | @inline _ _ _ _ _ _ inner height hread' hinner _ _ ihrest =>
    rcases List.mem_cons.1 hmem with heq | hmem
    · cases heq
      cases hread.symm.trans hread'
      exact ⟨_, inner, hinner, by omega⟩
    · obtain ⟨inlined, n, hexpands, hlt⟩ := ihrest hmem
      exact ⟨inlined, n, hexpands, by omega⟩

/-- No route opens more files than the height of the expansion. -/
theorem Route.length_le_height (h : Route d base top opened last)
    (hexpands : Expands d base (scan top) r height) : opened.length ≤ height := by
  induction h generalizing r height with
  | here => exact Nat.zero_le _
  | through hask hread _ ih =>
    obtain ⟨lexeme, target, hmem, rfl⟩ := hask
    obtain ⟨inlined, inner, hinner, hlt⟩ := hexpands.of_mem hmem hread
    have := ih hinner
    simp only [List.length_cons]
    omega

theorem Endless.not_expands (h : Endless d base top) :
    ¬ Expands d base (scan top) r height := by
  intro hexpands
  obtain ⟨opened, last, hroute, hlength⟩ := h (height + 1)
  have := hroute.length_le_height hexpands
  omega

/-- A text that asks for its own file has no end. -/
theorem Endless.of_loop {path : Path} (hask : AsksFor base top path)
    (hread : d.read path = .ok top) : Endless d base top := by
  intro n
  induction n with
  | zero => exact ⟨[], top, .here, Nat.le_refl 0⟩
  | succ n ih =>
    obtain ⟨opened, last, hroute, hlength⟩ := ih
    exact ⟨path :: opened, last, .through hask hread hroute, Nat.succ_le_succ hlength⟩

/-! ## Calls of a fresh expander -/

/-- The text that a call starts with. -/
def Call.source (d : Disk) : Call → Except Fault Text
  | .ofText text => .ok text
  | .ofFile path => d.read path

/-- What a fresh expander makes of a call. -/
def Call.result (d : Disk) (base : Path) (limit : UInt64) (call : Call) : Except Failure Text :=
  ((Expander.job { base := base, limit := limit } call.expansion).run d).value

theorem Call.genuine {call : Call} {failure : Failure} (hsource : call.source d = .ok top)
    (h : call.result d base limit = .error failure) : Genuine d base limit top failure := by
  cases call with
  | ofText text =>
    cases hsource
    exact Expander.genuine_of_resolve h
  | ofFile path => exact Expander.genuine_of_resolveFile hsource h

/-- The files that are open when the text of a call is expanded. -/
def Call.chain (d : Disk) : Call → List Identity
  | .ofText _ => []
  | .ofFile path => [d.identity path]

/-- The run of a fresh expander on a call. -/
theorem Call.comesTo {call : Call} (base : Path) (limit : UInt64)
    (hsource : call.source d = .ok top) :
    ComesTo d base limit (call.chain d) 0 (scan top) (call.result d base limit) := by
  cases call with
  | ofText text =>
    cases hsource
    exact Expander.comesTo_resolve d base limit top
  | ofFile path => exact Expander.comesTo_resolveFile base limit hsource

theorem Call.expands {call : Call} (hsource : call.source d = .ok top)
    (h : call.result d base limit = .ok r) : ∃ height, Expands d base (scan top) r height := by
  have hcomes := Call.comesTo base limit hsource
  rw [h] at hcomes
  obtain ⟨height, -, hexpands⟩ := hcomes.expands
  exact ⟨height, hexpands⟩

/-- A call that has no text to start with fails for that reason. -/
theorem Call.result_of_source_error {call : Call} {cause : Fault}
    (hsource : call.source d = .error cause) :
    ∃ path, ∀ base limit, call.result d base limit = .error (.sourceUnreadable path cause) := by
  cases call with
  | ofText text => cases hsource
  | ofFile path =>
    refine ⟨path, fun base limit => ?_⟩
    exact (Expander.looks_resolveFile_unreadable (x := { base := base, limit := limit })
      hsource).job.1

/-- With a limit above the number of files, an import never lies too deep. -/
theorem Call.result_ne_tooDeep {call : Call} (h : d.files.length < limit.toNat) (path : Path)
    (limit' : UInt64) : call.result d base limit ≠ .error (.importTooDeep path limit') := by
  intro hresult
  cases hsource : call.source d with
  | error cause =>
    obtain ⟨path', hfail⟩ := Call.result_of_source_error hsource
    cases (hfail base limit).symm.trans hresult
  | ok top =>
    have := (Call.genuine hsource hresult).not_tooDeep
    omega

/-- The chain holds each file of the disk at most once, so imports nest no deeper than there are
files.  A limit above that number is not met, and imports without an end are reported as a cycle
unless a file cannot be read. -/
theorem nesting_within_files (d : Disk) (base : Path) (limit : UInt64) (call : Call) :
    let watched := (Watch.run ⟨{ base := base, limit := limit }, []⟩ call.expansion).run d
    watched.value.1 = call.result d base limit ∧
    (∀ c ∈ watched.value.2.past, c.after.chain.Nodup ∧
      (∀ file ∈ c.after.chain, ∃ place ∈ d.files, file = .at place) ∧
      c.after.chain.length ≤ d.files.length ∧ c.after.depth.toNat ≤ d.files.length) ∧
    (d.files.length < limit.toNat →
      (∀ path limit', call.result d base limit ≠ .error (.importTooDeep path limit')) ∧
      ∀ top, call.source d = .ok top → Endless d base top →
        (∃ path, call.result d base limit = .error (.importCycle path)) ∨
        (∃ path cause, call.result d base limit = .error (.importUnreadable path cause))) := by
  intro watched
  obtain ⟨result, requests, changes, hplain, hwatched, hsound⟩ := mirrors_call d base limit call
  have hlooks : Expander.Looks { base := base, limit := limit } call.expansion d result := by
    simp [Expander.Looks, hplain]
  have hresult : call.result d base limit = result := hlooks.job.1
  have hvalue : watched.value = (result, ⟨{ base := base, limit := limit }, changes⟩) := by
    simp [watched, hwatched]
  refine ⟨by rw [hvalue, hresult], ?chain, ?limit⟩
  case chain =>
    intro c hc
    have hafter := (hsound c (by simpa [hvalue] using hc)).after
    refine ⟨hafter.nodup, ?_, hafter.length_le_files,
      Nat.le_trans hafter.depth_le_length hafter.length_le_files⟩
    intro file hfile
    obtain ⟨place, bytes, rfl, hget⟩ := hafter.files file hfile
    exact ⟨place, Disk.mem_files.2 ⟨bytes, hget⟩, rfl⟩
  case limit =>
    intro hlimit
    have hdeep : ∀ path limit', call.result d base limit ≠ .error (.importTooDeep path limit') :=
      Call.result_ne_tooDeep hlimit
    refine ⟨hdeep, ?_⟩
    intro top hsource hendless
    cases hvalue : call.result d base limit with
    | ok r =>
      obtain ⟨height, hexpands⟩ := Call.expands hsource hvalue
      exact absurd hexpands hendless.not_expands
    | error failure =>
      cases Call.genuine hsource hvalue with
      | cycle => exact Or.inl ⟨_, rfl⟩
      | unreadable => exact Or.inr ⟨_, _, rfl⟩
      | tooDeep => exact absurd hvalue (hdeep _ _)

/-- One file that imports itself, with room for two. -/
theorem nesting_within_files_loop :
    let sheet := "@import \"m\";".toList
    let d : Disk := ⟨[([['m']], .file (Text.encode sheet))], []⟩
    let base : Path := ⟨"/".toList⟩
    let result := Call.result d base 2 (.ofText sheet)
    d.files.length < (2 : UInt64).toNat ∧ Endless d base sheet ∧
      ((∃ path, result = .error (.importCycle path)) ∨
        ∃ path cause, result = .error (.importUnreadable path cause)) := by
  intro sheet d base result
  have hfiles : d.files.length < (2 : UInt64).toNat := by decide +kernel
  have hendless : Endless d base sheet :=
    Endless.of_loop ⟨sheet, ['m'], by decide +kernel, rfl⟩ (by decide +kernel)
  obtain ⟨-, -, hlimit⟩ := nesting_within_files d base 2 (.ofText sheet)
  exact ⟨hfiles, hendless, (hlimit hfiles).2 sheet rfl hendless⟩

end DeviceSheet
