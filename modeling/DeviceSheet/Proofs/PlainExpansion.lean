import DeviceSheet.Proofs.Expansion

/-!
# Expansion without a chain and without a limit

What a text with imports stands for does not depend on a chain or on a limit.  `Expands` says
it plainly: a directive stands for the expansion of its file, and all other tokens stand
for themselves.  A derivation is finite, so a text that imports itself has no
expansion.  The *height* of an expansion is the number of imports that are open
at its deepest point.

* A text has at most one expansion, and at most one height (`Expands.unique`).
* If the expander succeeds, it gives the plain expansion, and the height is within the limit
  (`ComesTo.expands`).
* If there is a plain expansion, the expander gives it or finds that the height is beyond the
  limit (`ComesTo.of_expands`).

The last point needs that no file of a finite expansion is taken for a cycle.  The reason is
height.  A file that is open has at least the height of the text that is read now, a file
that is about to be opened has less, and two spellings of one file have the same text and so
the same height.
-/

namespace DeviceSheet

/-- The tokens expand to a text, with imports nested to the given height. -/
inductive Expands (d : Disk) (base : Path) : List Token → Text → (height : Nat) → Prop
  | nil : Expands d base [] [] 0
  /-- The lexeme of a token stands for itself. -/
  | keep {token : Token} {rest : List Token} {after : Text} {height : Nat}
      (htoken : token.isDirective = false)
      (hrest : Expands d base rest after height) :
      Expands d base (token :: rest) (token.lexeme ++ after) height
  /-- The expansion of a file stands for a directive. -/
  | inline {rest : List Token} {lexeme target text inlined after : Text} {inner height : Nat}
      (hread : d.read (base.join ⟨target⟩) = .ok text)
      (hinner : Expands d base (scan text) inlined inner)
      (hrest : Expands d base rest after height) :
      Expands d base (.directive lexeme target :: rest) (inlined ++ after) (max (inner + 1) height)

variable {d : Disk} {base : Path} {limit : UInt64} {chain : List Identity} {depth : Nat}
  {tokens : List Token}

/-- Tokens have one expansion, of one height. -/
theorem Expands.unique {r r' : Text} {n n' : Nat} (h : Expands d base tokens r n)
    (h' : Expands d base tokens r' n') : r = r' ∧ n = n' := by
  induction h generalizing r' n' with
  | nil =>
    cases h'
    exact ⟨rfl, rfl⟩
  | keep htoken hrest ih =>
    cases h' with
    | keep htoken' hrest' =>
      obtain ⟨rfl, rfl⟩ := ih hrest'
      exact ⟨rfl, rfl⟩
    | inline => cases htoken
  | inline hread hinner hrest ihinner ihrest =>
    cases h' with
    | keep htoken' => cases htoken'
    | inline hread' hinner' hrest' =>
      cases hread.symm.trans hread'
      obtain ⟨rfl, rfl⟩ := ihinner hinner'
      obtain ⟨rfl, rfl⟩ := ihrest hrest'
      exact ⟨rfl, rfl⟩

/-! ## From the expander to the plain expansion -/

/-- A success is the plain expansion, and its height is within what is left below the limit. -/
theorem ComesTo.expands {r : Text} (h : ComesTo d base limit chain depth tokens (.ok r)) :
    ∃ height ≤ limit.toNat - depth, Expands d base tokens r height := by
  generalize hresult : Except.ok r = result at h
  induction h generalizing r with
  | nil =>
    cases hresult
    exact ⟨0, Nat.zero_le _, .nil⟩
  | @keep _ _ _ _ result htoken _ ih =>
    cases result with
    | error failure => cases hresult
    | ok after =>
      cases hresult
      obtain ⟨height, hle, hrest⟩ := ih rfl
      exact ⟨height, hle, .keep htoken hrest⟩
  | tooDeep | unreadable | cycle | fail => cases hresult
  | @inline _ _ _ _ _ _ _ result hdepth hread _ _ _ ihinner ihrest =>
    cases result with
    | error failure => cases hresult
    | ok after =>
      cases hresult
      obtain ⟨inner, hinnerle, hinner⟩ := ihinner rfl
      obtain ⟨height, hle, hrest⟩ := ihrest rfl
      exact ⟨max (inner + 1) height, by omega, .inline hread hinner hrest⟩

/-! ## From the plain expansion to the expander -/

/-- Every open file has an expansion of at least the given height. -/
def OpenAbove (d : Disk) (base : Path) (chain : List Identity) (height : Nat) : Prop :=
  ∀ file ∈ chain, ∃ path text r n,
    file = d.identity path ∧ d.read path = .ok text ∧ Expands d base (scan text) r n ∧ height ≤ n

theorem OpenAbove.nil (height : Nat) : OpenAbove d base [] height := by
  intro file hfile
  cases hfile

theorem OpenAbove.mono {m n : Nat} (h : OpenAbove d base chain n) (hle : m ≤ n) :
    OpenAbove d base chain m := by
  intro file hfile
  obtain ⟨path, text, r, k, hpath, hread, hexpands, hk⟩ := h file hfile
  exact ⟨path, text, r, k, hpath, hread, hexpands, by omega⟩

/-- A file is opened at its own height. -/
theorem OpenAbove.push {path : Path} {text r : Text} {n : Nat} (h : OpenAbove d base chain n)
    (hread : d.read path = .ok text) (hexpands : Expands d base (scan text) r n) :
    OpenAbove d base (chain ++ [d.identity path]) n := by
  intro file hfile
  rcases List.mem_append.1 hfile with hfile | hfile
  · exact h file hfile
  · rw [List.mem_singleton.1 hfile]
    exact ⟨path, text, r, n, rfl, hread, hexpands, Nat.le_refl n⟩

/-- A file of less height than all open files is not open, however its path is spelled. -/
theorem OpenAbove.closed {path : Path} {text r : Text} {m n : Nat} (h : OpenAbove d base chain n)
    (hread : d.read path = .ok text) (hexpands : Expands d base (scan text) r m) (hlt : m < n) :
    chain.any (d.identity path).same = false := by
  rw [List.any_eq_false]
  intro file hfile hsame
  obtain ⟨path', text', r', k, rfl, hread', hexpands', hk⟩ := h file hfile
  obtain rfl := Disk.read_eq_of_same hread hread' hsame
  obtain ⟨-, rfl⟩ := hexpands.unique hexpands'
  omega

/-- The expander gives the plain expansion, or its height is beyond the limit. -/
theorem ComesTo.of_expands {r : Text} {height : Nat} {result : Except Failure Text}
    (hexpands : Expands d base tokens r height) (hopen : OpenAbove d base chain height)
    (h : ComesTo d base limit chain depth tokens result) :
    (height ≤ limit.toNat - depth ∧ result = .ok r) ∨
      (limit.toNat - depth < height ∧ ∃ path, result = .error (.importTooDeep path limit)) := by
  induction hexpands generalizing chain depth result with
  | nil =>
    cases h
    exact .inl ⟨Nat.zero_le _, rfl⟩
  | keep htoken _ ih =>
    cases h with
    | keep _ hrest =>
      rcases ih hopen hrest with ⟨hle, rfl⟩ | ⟨hlt, path, rfl⟩
      · exact .inl ⟨hle, rfl⟩
      · exact .inr ⟨hlt, path, rfl⟩
    | tooDeep | unreadable | cycle | fail | inline => cases htoken
  | @inline _ _ _ _ _ _ inner height hread hinner _ ihinner ihrest =>
    -- the file of the directive lies below all open files, and so does the text after it
    have hclosed := hopen.closed hread hinner (by omega)
    have hpush := (hopen.mono (by omega)).push hread hinner
    have hafter := hopen.mono (m := height) (by omega)
    cases h with
    | keep htoken => cases htoken
    | tooDeep hdepth => exact .inr ⟨by omega, _, rfl⟩
    | unreadable _ hread' =>
      cases hread.symm.trans hread'
    | cycle _ _ hopen' =>
      cases hclosed.symm.trans hopen'
    | fail hdepth hread' _ hfail =>
      cases hread.symm.trans hread'
      rcases ihinner hpush hfail with ⟨_, hok⟩ | ⟨hlt, path, herror⟩
      · cases hok
      · cases herror
        exact .inr ⟨by omega, path, rfl⟩
    | inline hdepth hread' _ hinner' hrest' =>
      cases hread.symm.trans hread'
      rcases ihinner hpush hinner' with ⟨hle, hok⟩ | ⟨_, path, herror⟩
      · cases hok
        rcases ihrest hafter hrest' with ⟨hle', rfl⟩ | ⟨hlt, path, rfl⟩
        · exact .inl ⟨by omega, rfl⟩
        · exact .inr ⟨by omega, path, rfl⟩
      · cases herror

/-! ## Expansion from the top -/

section

variable {r : Text} {result : Except Failure Text}

/-- From depth zero the expander succeeds exactly with a plain expansion within the limit. -/
theorem ComesTo.eq_ok_iff (h : ComesTo d base limit chain 0 tokens result)
    (hopen : ∀ r n, Expands d base tokens r n → OpenAbove d base chain n) :
    result = .ok r ↔ ∃ n ≤ limit.toNat, Expands d base tokens r n := by
  constructor
  · rintro rfl
    exact h.expands
  · rintro ⟨n, hle, hexpands⟩
    rcases ComesTo.of_expands hexpands (hopen r n hexpands) h with ⟨_, hok⟩ | ⟨hlt, _⟩
    · exact hok
    · omega

/-- What has a plain expansion is not taken for a cycle. -/
theorem ComesTo.ne_importCycle {n : Nat} (h : ComesTo d base limit chain depth tokens result)
    (hexpands : Expands d base tokens r n) (hopen : OpenAbove d base chain n) (path : Path) :
    result ≠ .error (.importCycle path) := by
  rintro rfl
  rcases ComesTo.of_expands hexpands hopen h with ⟨_, hok⟩ | ⟨_, path', herror⟩
  · cases hok
  · cases herror

end

namespace Expander

/-- The run of a fresh expander on a text. -/
theorem comesTo_resolve (d : Disk) (base : Path) (limit : UInt64) (s : Text) :
    ComesTo d base limit [] 0 (scan s)
      ((job { base := base, limit := limit } (resolve s)).run d).value := by
  obtain ⟨result, hcomes, hlooks⟩ := looks_resolve { base := base, limit := limit } d s
  rw [hlooks.job.1]
  exact hcomes

/-- The run of a fresh expander on a file. -/
theorem comesTo_resolveFile {d : Disk} {path : Path} {s : Text} (base : Path) (limit : UInt64)
    (hread : d.read path = .ok s) :
    ComesTo d base limit ([] ++ [d.identity path]) 0 (scan s)
      ((job { base := base, limit := limit } (resolveFile path)).run d).value := by
  obtain ⟨result, hcomes, hlooks⟩ :=
    looks_resolveFile (x := { base := base, limit := limit }) hread
  rw [hlooks.job.1]
  exact hcomes

/-- A fresh expander gives exactly the plain expansions whose height is within the limit, both of
a text and of a file that can be read.  What has a plain expansion is never taken for
a cycle. -/
theorem resolve_exact (d : Disk) (base : Path) (limit : UInt64) :
    (∀ s r, ((job { base := base, limit := limit } (resolve s)).run d).value = .ok r ↔
      ∃ height ≤ limit.toNat, Expands d base (scan s) r height) ∧
    (∀ path r, ((job { base := base, limit := limit } (resolveFile path)).run d).value = .ok r ↔
      ∃ s, d.read path = .ok s ∧ ∃ height ≤ limit.toNat, Expands d base (scan s) r height) ∧
    (∀ s r height, Expands d base (scan s) r height → ∀ target,
      ((job { base := base, limit := limit } (resolve s)).run d).value ≠
        .error (.importCycle target)) ∧
    (∀ path s r height, d.read path = .ok s → Expands d base (scan s) r height → ∀ target,
      ((job { base := base, limit := limit } (resolveFile path)).run d).value ≠
        .error (.importCycle target)) := by
  refine ⟨?text, ?file, ?textCycle, ?fileCycle⟩
  case text =>
    intro s r
    exact (comesTo_resolve d base limit s).eq_ok_iff fun _ n _ => OpenAbove.nil n
  case file =>
    intro path r
    cases hread : d.read path with
    | error cause =>
      have hrun := looks_resolveFile_unreadable (x := { base := base, limit := limit }) hread
      rw [hrun.job.1]
      constructor
      · intro h
        cases h
      · rintro ⟨s, hs, _⟩
        cases hs
    | ok s =>
      rw [(comesTo_resolveFile base limit hread).eq_ok_iff
        fun _ n hexpands => (OpenAbove.nil n).push hread hexpands]
      constructor
      · intro h
        exact ⟨s, rfl, h⟩
      · rintro ⟨s', hs, h⟩
        cases hs
        exact h
  case textCycle =>
    intro s r height hexpands
    exact (comesTo_resolve d base limit s).ne_importCycle hexpands (OpenAbove.nil height)
  case fileCycle =>
    intro path s r height hread hexpands
    exact (comesTo_resolveFile base limit hread).ne_importCycle hexpands
      ((OpenAbove.nil height).push hread hexpands)

-- One file twice, under two spellings of its path.
example :
    ((job { base := ⟨"/".toList⟩ } (resolve "@import \"m\";@import \"./m\";".toList)).run
      ⟨[([['m']], .file (Text.encode "a".toList))], []⟩).value = .ok "aa".toList := by
  decide +kernel

end Expander

end DeviceSheet
