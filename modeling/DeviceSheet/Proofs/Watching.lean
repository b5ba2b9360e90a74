import Mathlib.Data.List.Nodup
import DeviceSheet.Proofs.Expansion

/-!
# The expander under watch

The state of an expander comes back from every run as it was.  So the end of a run says
nothing about what the state was on the way.  A *watched* run is a run of the same steps
that keeps a record of all changes of the state.  It makes the same requests and has
the same result as the plain run (`Mirrors`), and the record shows what the plain run
hides.

* The depth goes up and down by one and stays within the limit.  So it does not
  run over, however great the limit is, and it is not lowered at zero.
* The chain holds files that can be read, each of them once.

These are the fields of `Orderly` and `Change.Sound`.  The chain grows before the depth does and
shrinks after it, so the depth is never above the length of the chain.
-/

namespace DeviceSheet

/-- A change of the state of an expander. -/
structure Change where
  before : Expander
  after : Expander
deriving DecidableEq

/-- An expander with the changes it has been through, oldest first. -/
structure Watch where
  now : Expander
  past : List Change
deriving DecidableEq

/-- The watch after one more change. -/
def Watch.change (w : Watch) (f : Expander → Expander) : Watch :=
  ⟨f w.now, w.past ++ [⟨w.now, f w.now⟩]⟩

/-- The state of a watched run is that of its expander, and every change is recorded. -/
instance watchedState : MonadStateOf Expander (StateT Watch Action) where
  get := do return (← getThe Watch).now
  set x := modifyThe Watch fun w => w.change fun _ => x
  modifyGet f := modifyGetThe Watch fun w => ((f w.now).1, w.change fun x => (f x).2)

/-- A watched step of import expansion. -/
abbrev WatchedExpansion := ExceptT Failure (StateT Watch Action)

namespace Watch

variable {α β : Type}

/-- Runs a watched expansion from a given state. -/
def run (w : Watch) (e : WatchedExpansion α) : Action (Except Failure α × Watch) :=
  StateT.run (ExceptT.run e) w

theorem run_bind (w : Watch) (e : WatchedExpansion α) (f : α → WatchedExpansion β) :
    w.run (e >>= f) = w.run e >>= fun r =>
      match r.1 with
      | .ok value => r.2.run (f value)
      | .error failure => pure (.error failure, r.2) :=
  Expander.run_bind_of_state w e f

theorem run_holding (w : Watch) (file : Identity) (e : WatchedExpansion α) :
    w.run (Expander.holding file e) =
      (w.change fun x => { x with chain := x.chain ++ [file] }).run e >>= fun r =>
        pure (r.1, r.2.change fun x => { x with chain := x.chain.dropLast }) := rfl

theorem run_deeper (w : Watch) (e : WatchedExpansion α) :
    w.run (Expander.deeper e) =
      (w.change fun x => { x with depth := x.depth + 1 }).run e >>= fun r =>
        pure (r.1, r.2.change fun x => { x with depth := x.depth - 1 }) := rfl

end Watch

/-! ## The plain run and the watched run -/

/-- From this state and on this disk the watched and the plain expansion come to the same, with
the same requests.  They leave the state and the disk as they are, and all changes on the way are
allowed. -/
def Mirrors {α : Type} (allowed : Change → Prop) (d : Disk) (x : Expander)
    (w : WatchedExpansion α) (e : Expansion α) : Prop :=
  ∃ result requests changes,
    (x.run e).run d = ⟨(result, x), d, requests⟩ ∧
    (∀ past, (Watch.run ⟨x, past⟩ w).run d = ⟨(result, ⟨x, past ++ changes⟩), d, requests⟩) ∧
    ∀ c ∈ changes, allowed c

namespace Mirrors

variable {α β : Type} {allowed : Change → Prop} {d : Disk} {x : Expander}
  {w : WatchedExpansion α} {e : Expansion α}

theorem pure (value : α) : Mirrors allowed d x (pure value) (pure value) :=
  ⟨.ok value, [], [], rfl, fun past => by rw [List.append_nil]; rfl, by simp⟩

theorem throw (failure : Failure) :
    Mirrors (α := α) allowed d x (throw failure) (throw failure) :=
  ⟨.error failure, [], [], rfl, fun past => by rw [List.append_nil]; rfl, by simp⟩

theorem get : Mirrors allowed d x (get : WatchedExpansion Expander) get :=
  ⟨.ok x, [], [], rfl, fun past => by rw [List.append_nil]; rfl, by simp⟩

theorem read (failure : Fault → Failure) (path : Path) :
    Mirrors allowed d x (attempt failure (Action.read path)) (attempt failure (Action.read path)) :=
  ⟨(d.read path).mapError failure, [.read path], [], rfl,
    fun past => by rw [List.append_nil]; rfl, by simp⟩

/-- A request that changes nothing. -/
theorem lift {a : Action α} (h : (a.run d).disk = d) :
    Mirrors allowed d x (a : WatchedExpansion α) (a : Expansion α) := by
  refine ⟨.ok (a.run d).value, (a.run d).requests, [], ?_, ?_, by simp⟩
  · rw [Expander.run, Expander.run_lift_of_state, Action.run_bind, h]
    simp
  · intro past
    rw [Watch.run, Expander.run_lift_of_state, Action.run_bind, h]
    simp

/-- The second expansion starts with the value of the first. -/
theorem bind {w' : α → WatchedExpansion β} {e' : α → Expansion β} (h : Mirrors allowed d x w e)
    (h' : ∀ value, ((x.run e).run d).value.1 = .ok value →
      Mirrors allowed d x (w' value) (e' value)) :
    Mirrors allowed d x (w >>= w') (e >>= e') := by
  obtain ⟨result, requests, changes, hplain, hwatched, hchanges⟩ := h
  cases result with
  | error failure =>
    refine ⟨.error failure, requests, changes, ?_, ?_, hchanges⟩
    · rw [Expander.run_bind, Action.run_bind, hplain]
      simp
    · intro past
      rw [Watch.run_bind, Action.run_bind, hwatched]
      simp
  | ok value =>
    obtain ⟨result, requests', changes', hplain', hwatched', hchanges'⟩ := h' value (by rw [hplain])
    refine ⟨result, requests ++ requests', changes ++ changes', ?_, ?_, ?_⟩
    · rw [Expander.run_bind, Action.run_bind, hplain]
      simp [hplain']
    · intro past
      rw [Watch.run_bind, Action.run_bind, hwatched]
      simp [hwatched']
    · simpa [or_imp, forall_and] using And.intro hchanges hchanges'

/-- The state is known. -/
theorem bind_get {w' : Expander → WatchedExpansion β} {e' : Expander → Expansion β}
    (h : Mirrors allowed d x (w' x) (e' x)) :
    Mirrors allowed d x (MonadState.get >>= w') (MonadState.get >>= e') := by
  refine get.bind ?_
  intro y hy
  obtain rfl : x = y := Except.ok.inj hy
  exact h

/-- A directive that is refused changes nothing. -/
theorem refuse (target : Text) :
    Mirrors allowed d x (Expander.refuse target) (Expander.refuse target) :=
  bind_get (.throw _)

/-- What is read is the text of the file. -/
theorem bind_read {w' : Text → WatchedExpansion β} {e' : Text → Expansion β}
    (failure : Fault → Failure) {path : Path}
    (h : ∀ text, d.read path = .ok text → Mirrors allowed d x (w' text) (e' text)) :
    Mirrors allowed d x (attempt failure (Action.read path) >>= w')
      (attempt failure (Action.read path) >>= e') := by
  refine (read failure path).bind ?_
  intro text htext
  exact h text (eq_ok_of_mapError_eq_ok htext)

/-- What is found out is the identity of the file. -/
theorem bind_identify {w' : Identity → WatchedExpansion β} {e' : Identity → Expansion β}
    {path : Path} (h : Mirrors allowed d x (w' (d.identity path)) (e' (d.identity path))) :
    Mirrors allowed d x ((Action.identify path : WatchedExpansion Identity) >>= w')
      ((Action.identify path : Expansion Identity) >>= e') := by
  refine (lift (by rw [Disk.run_identify])).bind ?_
  intro file hfile
  rw [Expander.run, Expander.run_lift_of_state, Action.run_bind, Disk.run_identify] at hfile
  obtain rfl : d.identity path = file := Except.ok.inj hfile
  exact h

theorem map (f : α → β) (h : Mirrors allowed d x w e) :
    Mirrors allowed d x (f <$> w) (f <$> e) := by
  rw [map_eq_pure_bind, map_eq_pure_bind]
  exact h.bind fun value _ => .pure (f value)

/-- A file is put on the chain and taken off again. -/
theorem holding {file : Identity}
    (h : Mirrors allowed d { x with chain := x.chain ++ [file] } w e)
    (hpush : allowed ⟨x, { x with chain := x.chain ++ [file] }⟩)
    (hpop : allowed ⟨{ x with chain := x.chain ++ [file] }, x⟩) :
    Mirrors allowed d x (Expander.holding file w) (Expander.holding file e) := by
  obtain ⟨result, requests, changes, hplain, hwatched, hchanges⟩ := h
  refine ⟨result, requests, ⟨x, { x with chain := x.chain ++ [file] }⟩ :: changes ++
    [⟨{ x with chain := x.chain ++ [file] }, x⟩], ?_, ?_, ?_⟩
  · rw [Expander.run_holding, Action.run_bind, hplain]
    simp
  · intro past
    rw [Watch.run_holding, Action.run_bind, Watch.change, hwatched]
    simp [Watch.change]
  · simpa [or_imp, forall_and] using ⟨hpush, hchanges, hpop⟩

/-- The depth is raised and lowered again. -/
theorem deeper (h : Mirrors allowed d { x with depth := x.depth + 1 } w e)
    (hup : allowed ⟨x, { x with depth := x.depth + 1 }⟩)
    (hdown : allowed ⟨{ x with depth := x.depth + 1 }, x⟩) :
    Mirrors allowed d x (Expander.deeper w) (Expander.deeper e) := by
  obtain ⟨result, requests, changes, hplain, hwatched, hchanges⟩ := h
  refine ⟨result, requests, ⟨x, { x with depth := x.depth + 1 }⟩ :: changes ++
    [⟨{ x with depth := x.depth + 1 }, x⟩], ?_, ?_, ?_⟩
  · rw [Expander.run_deeper, Action.run_bind, hplain]
    simp
  · intro past
    rw [Watch.run_deeper, Action.run_bind, Watch.change, hwatched]
    simp [Watch.change]
  · simpa [or_imp, forall_and] using ⟨hup, hchanges, hdown⟩

end Mirrors

/-! ## What holds on the way -/

/-- The counter and the chain of an expander are in order, on a disk and with a limit. -/
structure Orderly (d : Disk) (limit : UInt64) (x : Expander) : Prop where
  limit_eq : x.limit = limit
  depth_le_limit : x.depth.toNat ≤ limit.toNat
  depth_le_length : x.depth.toNat ≤ x.chain.length
  /-- Every open file is a file of the disk. -/
  files : ∀ file ∈ x.chain, ∃ place bytes, file = .at place ∧ d.get? place = some (.file bytes)
  /-- No file is open twice. -/
  nodup : x.chain.Nodup

/-- The state is in order before and after the change, and the depth moves by one or not at all. -/
structure Change.Sound (d : Disk) (limit : UInt64) (c : Change) : Prop where
  before : Orderly d limit c.before
  after : Orderly d limit c.after
  depth : c.after.depth.toNat = c.before.depth.toNat + 1 ∨
    c.before.depth.toNat = c.after.depth.toNat + 1 ∨ c.after.depth = c.before.depth

/-- A fresh expander is in order. -/
theorem orderly_fresh (d : Disk) (base : Path) (limit : UInt64) :
    Orderly d limit { base := base, limit := limit } where
  limit_eq := rfl
  depth_le_limit := Nat.zero_le _
  depth_le_length := Nat.zero_le _
  files := by simp
  nodup := by simp

namespace Orderly

variable {α : Type} {d : Disk} {limit : UInt64} {x : Expander} {path : Path} {text : Text}

/-- A file that can be read and is not open is put on the chain. -/
theorem push (h : Orderly d limit x) (hread : d.read path = .ok text)
    (hclosed : x.chain.any (d.identity path).same = false) :
    Orderly d limit { x with chain := x.chain ++ [d.identity path] } where
  limit_eq := h.limit_eq
  depth_le_limit := h.depth_le_limit
  depth_le_length := by
    have := h.depth_le_length
    simp only [List.length_append, List.length_singleton]
    omega
  files := by
    intro file hfile
    rcases List.mem_append.1 hfile with hfile | hfile
    · exact h.files file hfile
    · rw [List.mem_singleton.1 hfile]
      exact Disk.exists_identity_of_read hread
  nodup := by
    have hfresh : d.identity path ∉ x.chain := by
      intro hmem
      exact List.any_eq_false.1 hclosed _ hmem (Identity.same_self _)
    rw [← List.concat_eq_append]
    exact h.nodup.concat hfresh

/-- Below the limit and below the length of the chain the depth may be raised. -/
theorem raise (h : Orderly d limit x) (hlimit : x.depth.toNat < x.limit.toNat)
    (hlength : x.depth.toNat < x.chain.length) :
    Orderly d limit { x with depth := x.depth + 1 } where
  limit_eq := h.limit_eq
  depth_le_limit := by
    show (x.depth + 1).toNat ≤ limit.toNat
    rw [Expander.toNat_depth_succ hlimit, ← h.limit_eq]
    omega
  depth_le_length := by
    show (x.depth + 1).toNat ≤ x.chain.length
    rw [Expander.toNat_depth_succ hlimit]
    omega
  files := h.files
  nodup := h.nodup

/-! ## Every step of the expander -/

theorem mirrors_holding {w : WatchedExpansion α} {e : Expansion α} (h : Orderly d limit x)
    (hread : d.read path = .ok text) (hclosed : x.chain.any (d.identity path).same = false)
    (hinner : Orderly d limit { x with chain := x.chain ++ [d.identity path] } →
      Mirrors (Change.Sound d limit) d { x with chain := x.chain ++ [d.identity path] } w e) :
    Mirrors (Change.Sound d limit) d x (Expander.holding (d.identity path) w)
      (Expander.holding (d.identity path) e) := by
  have hpush := h.push hread hclosed
  exact (hinner hpush).holding ⟨h, hpush, by simp⟩ ⟨hpush, h, by simp⟩

theorem mirrors_deeper {w : WatchedExpansion α} {e : Expansion α} (h : Orderly d limit x)
    (hlimit : x.depth.toNat < x.limit.toNat) (hlength : x.depth.toNat < x.chain.length)
    (hinner : Orderly d limit { x with depth := x.depth + 1 } →
      Mirrors (Change.Sound d limit) d { x with depth := x.depth + 1 } w e) :
    Mirrors (Change.Sound d limit) d x (Expander.deeper w) (Expander.deeper e) := by
  have hraise := h.raise hlimit hlength
  have hdepth := Expander.toNat_depth_succ hlimit
  exact (hinner hraise).deeper ⟨h, hraise, Or.inl hdepth⟩ ⟨hraise, h, Or.inr (Or.inl hdepth)⟩

/-- A directive keeps things in order if the text one level deeper does. -/
theorem mirrors_importWith {w : Text → WatchedExpansion Text} {e : Text → Expansion Text}
    (h : Orderly d limit x)
    (hexpand : ∀ file text, Orderly d limit (x.inside file) →
      Mirrors (Change.Sound d limit) d (x.inside file) (w text) (e text))
    (target : Text) :
    Mirrors (Change.Sound d limit) d x (Expander.importWith w target)
      (Expander.importWith e target) := by
  refine Mirrors.bind_get ?_
  rcases Nat.lt_or_ge x.depth.toNat x.limit.toNat with hlimit | hlimit
  case inr =>
    have hfull := UInt64.le_iff_toNat_le.2 hlimit
    rw [if_pos hfull, if_pos hfull]
    exact Mirrors.refuse target
  rw [if_neg (Expander.not_limit_le hlimit), if_neg (Expander.not_limit_le hlimit)]
  refine Mirrors.bind_read _ fun text hread => Mirrors.bind_identify ?_
  cases hopen : x.chain.any (d.identity (x.base.join ⟨target⟩)).same with
  | true =>
    rw [if_pos rfl, if_pos rfl]
    exact (Mirrors.throw _).bind fun _ hvalue => by cases hvalue
  | false =>
    rw [if_neg (by simp), if_neg (by simp)]
    refine (Mirrors.lift rfl).bind fun _ _ => (Mirrors.lift rfl).bind fun _ _ => ?_
    refine h.mirrors_holding hread hopen fun hpush => hpush.mirrors_deeper hlimit ?_ ?_
    · have := h.depth_le_length
      simp only [List.length_append, List.length_singleton]
      omega
    · exact hexpand _ text

end Orderly

section

variable {d : Disk} {limit : UInt64} {x : Expander} {allowed : Change → Prop}

theorem mirrors_tokens {w : Text → WatchedExpansion Text} {e : Text → Expansion Text}
    (h : ∀ target, Mirrors allowed d x (w target) (e target)) (tokens : List Token) :
    Mirrors allowed d x (List.flatten <$> tokens.mapM (Expander.spell w))
      (List.flatten <$> tokens.mapM (Expander.spell e)) := by
  induction tokens with
  | nil => exact .pure []
  | cons token rest ih =>
    rw [Expander.flatten_mapM_cons, Expander.flatten_mapM_cons]
    refine Mirrors.bind ?_ fun text _ => ih.map (text ++ ·)
    cases token with
    | literal lexeme => exact .pure lexeme
    | device lexeme call => exact .pure lexeme
    | directive lexeme target => exact h target

/-- The expansion of a text keeps things in order, in whatever room.  It is the depth that is held
against the limit. -/
theorem mirrors_expand (room : Nat) (h : Orderly d limit x) (text : Text) :
    Mirrors (Change.Sound d limit) d x (Expander.expand room text) (Expander.expand room text) := by
  induction room generalizing x text with
  | zero => exact mirrors_tokens Mirrors.refuse (scan text)
  | succ room ih =>
    exact mirrors_tokens (h.mirrors_importWith fun file inner hinner => ih hinner inner) (scan text)

theorem mirrors_resolve (h : Orderly d limit x) (text : Text) :
    Mirrors (Change.Sound d limit) d x (Expander.resolve text) (Expander.resolve text) :=
  Mirrors.bind_get (mirrors_expand _ h text)

/-- The file at the top is the first on the chain. -/
theorem mirrors_resolveFile (h : Orderly d limit x) (hchain : x.chain = []) (path : Path) :
    Mirrors (Change.Sound d limit) d x (Expander.resolveFile path)
      (Expander.resolveFile path) := by
  refine Mirrors.bind_read _ fun text hread => Mirrors.bind_identify ?_
  exact h.mirrors_holding hread (by simp [hchain]) fun hpush => mirrors_resolve hpush text

end

end DeviceSheet
