import DeviceSheet.Expander
import DeviceSheet.Proofs.FileIdentity
import DeviceSheet.Proofs.Reading

/-!
# What an expansion comes to

The expander is a program with a state and requests.  `ComesTo` says what it does as a
relation on the tokens of a text, given the files that are open and the number of open
imports.

* A token that is no directive is kept.
* A directive fails, in this order, if it lies too deep, if its file cannot be read and
  if its file is open.
* Any other directive opens its file.  The tokens of the file are expanded one level
  deeper, and a failure there is a failure of the directive.

The first failure ends the expansion.  `Expander.looks_resolve` and
`Expander.looks_resolveFile` say that the program does what the relation says and leaves
the disk and its own state as they were.  The proof is by induction on the room, and
inside of it by induction on the tokens.

The room has to be enough and no more than that.  It is the depth that is held against the
limit at each import, so the limit is kept in any room that covers what is left below it
(`Expander.looks_expand`), and all such rooms give the same run (`Expander.run_expand`).
-/

namespace DeviceSheet

/-- Does a token ask for another file? -/
def Token.isDirective : Token → Bool
  | .directive .. => true
  | _ => false

/-- What the tokens of a text come to on a disk, with the files of `chain` open and with `depth`
imports open. -/
inductive ComesTo (d : Disk) (base : Path) (limit : UInt64) :
    (chain : List Identity) → (depth : Nat) → List Token → Except Failure Text → Prop
  | nil {chain : List Identity} {depth : Nat} : ComesTo d base limit chain depth [] (.ok [])
  /-- The lexeme of a token stands for itself. -/
  | keep {chain : List Identity} {depth : Nat} {token : Token} {rest : List Token}
      {result : Except Failure Text}
      (htoken : token.isDirective = false)
      (hrest : ComesTo d base limit chain depth rest result) :
      ComesTo d base limit chain depth (token :: rest) (result.map (token.lexeme ++ ·))
  | tooDeep {chain : List Identity} {depth : Nat} {rest : List Token}
      {lexeme target : Text}
      (hdepth : limit.toNat ≤ depth) :
      ComesTo d base limit chain depth (.directive lexeme target :: rest)
        (.error (.importTooDeep (base.join ⟨target⟩) limit))
  | unreadable {chain : List Identity} {depth : Nat} {rest : List Token}
      {lexeme target : Text} {cause : Fault}
      (hdepth : depth < limit.toNat)
      (hread : d.read (base.join ⟨target⟩) = .error cause) :
      ComesTo d base limit chain depth (.directive lexeme target :: rest)
        (.error (.importUnreadable (base.join ⟨target⟩) cause))
  | cycle {chain : List Identity} {depth : Nat} {rest : List Token}
      {lexeme target text : Text}
      (hdepth : depth < limit.toNat)
      (hread : d.read (base.join ⟨target⟩) = .ok text)
      (hopen : chain.any (d.identity (base.join ⟨target⟩)).same = true) :
      ComesTo d base limit chain depth (.directive lexeme target :: rest)
        (.error (.importCycle (base.join ⟨target⟩)))
  /-- A failure inside of an imported file. -/
  | fail {chain : List Identity} {depth : Nat} {rest : List Token}
      {lexeme target text : Text} {failure : Failure}
      (hdepth : depth < limit.toNat)
      (hread : d.read (base.join ⟨target⟩) = .ok text)
      (hclosed : chain.any (d.identity (base.join ⟨target⟩)).same = false)
      (hinner : ComesTo d base limit (chain ++ [d.identity (base.join ⟨target⟩)]) (depth + 1)
        (scan text) (.error failure)) :
      ComesTo d base limit chain depth (.directive lexeme target :: rest) (.error failure)
  /-- The expansion of an imported file stands for the directive. -/
  | inline {chain : List Identity} {depth : Nat} {rest : List Token}
      {lexeme target text inlined : Text} {result : Except Failure Text}
      (hdepth : depth < limit.toNat)
      (hread : d.read (base.join ⟨target⟩) = .ok text)
      (hclosed : chain.any (d.identity (base.join ⟨target⟩)).same = false)
      (hinner : ComesTo d base limit (chain ++ [d.identity (base.join ⟨target⟩)]) (depth + 1)
        (scan text) (.ok inlined))
      (hrest : ComesTo d base limit chain depth rest result) :
      ComesTo d base limit chain depth (.directive lexeme target :: rest)
        (result.map (inlined ++ ·))

namespace Expander

variable {α β : Type} {x : Expander} {d : Disk}

/-! ## Expansions that only look -/

/-- From this state and on this disk the expansion has the given result, and it leaves the state
and the disk as they are. -/
def Looks (x : Expander) (e : Expansion α) (d : Disk) (result : Except Failure α) : Prop :=
  ((x.run e).run d).value = (result, x) ∧ ((x.run e).run d).disk = d

theorem Looks.pure (value : α) : x.Looks (pure value) d (.ok value) := ⟨rfl, rfl⟩

theorem Looks.throw (failure : Failure) :
    x.Looks (throw failure : Expansion α) d (.error failure) := ⟨rfl, rfl⟩

theorem Looks.get : x.Looks get d (.ok x) := ⟨rfl, rfl⟩

/-- A request that changes nothing. -/
theorem Looks.lift {a : Action α} (h : (a.run d).disk = d) :
    x.Looks (a : Expansion α) d (.ok (a.run d).value) := by
  have hrun : x.run (a : Expansion α) = a >>= fun value => Pure.pure (.ok value, x) :=
    run_lift_of_state x a
  rw [Looks, hrun, Action.run_bind, h]
  exact ⟨rfl, rfl⟩

theorem Looks.identify (path : Path) :
    x.Looks (Action.identify path : Expansion Identity) d (.ok (d.identity path)) := by
  have h := Looks.lift (x := x) (d := d) (a := Action.identify path)
  rw [Disk.run_identify] at h
  exact h rfl

theorem Looks.read {path : Path} {text : Text} (failure : Fault → Failure)
    (h : d.read path = .ok text) : x.Looks (attempt failure (Action.read path)) d (.ok text) := by
  refine ⟨?_, rfl⟩
  change ((d.read path).mapError failure, x) = _
  rw [h]
  rfl

theorem Looks.read_error {path : Path} {cause : Fault} (failure : Fault → Failure)
    (h : d.read path = .error cause) :
    x.Looks (attempt failure (Action.read path)) d (.error (failure cause)) := by
  refine ⟨?_, rfl⟩
  change ((d.read path).mapError failure, x) = _
  rw [h]
  rfl

theorem Looks.bind {e : Expansion α} {f : α → Expansion β} {value : α} {result : Except Failure β}
    (h : x.Looks e d (.ok value)) (hf : x.Looks (f value) d result) :
    x.Looks (e >>= f) d result := by
  obtain ⟨hvalue, hdisk⟩ := h
  rw [Looks, run_bind, Action.run_bind, hvalue, hdisk]
  exact hf

theorem Looks.bind_error {e : Expansion α} {f : α → Expansion β} {failure : Failure}
    (h : x.Looks e d (.error failure)) : x.Looks (e >>= f) d (.error failure) := by
  obtain ⟨hvalue, hdisk⟩ := h
  rw [Looks, run_bind, Action.run_bind, hvalue, hdisk]
  exact ⟨rfl, rfl⟩

theorem Looks.map {e : Expansion α} {result : Except Failure α} (f : α → β)
    (h : x.Looks e d result) : x.Looks (f <$> e) d (result.map f) := by
  rw [map_eq_pure_bind]
  cases result with
  | ok value => exact h.bind (Looks.pure (f value))
  | error failure => exact h.bind_error

theorem Looks.holding {e : Expansion α} {result : Except Failure α} {file : Identity}
    (h : Looks { x with chain := x.chain ++ [file] } e d result) :
    x.Looks (holding file e) d result := by
  obtain ⟨hvalue, hdisk⟩ := h
  rw [Looks, run_holding, Action.run_bind, hvalue, hdisk]
  simp

theorem Looks.deeper {e : Expansion α} {result : Except Failure α}
    (h : Looks { x with depth := x.depth + 1 } e d result) : x.Looks (deeper e) d result := by
  obtain ⟨hvalue, hdisk⟩ := h
  rw [Looks, run_deeper, Action.run_bind, hvalue, hdisk]
  simp

/-- The result of an expansion that only looks is the result of the job. -/
theorem Looks.job {e : Expansion α} {result : Except Failure α} (h : x.Looks e d result) :
    (x.job e).Looks d result := by
  obtain ⟨hvalue, hdisk⟩ := h
  have hrun : (x.job e).run d = (Prod.fst <$> x.run e).run d := rfl
  rw [Job.Looks, hrun, map_eq_pure_bind, Action.run_bind, hvalue, hdisk]
  exact ⟨rfl, rfl⟩

/-! ## One directive -/

/-- The state in which the text of an imported file is expanded. -/
def inside (x : Expander) (file : Identity) : Expander :=
  { x with chain := x.chain ++ [file], depth := x.depth + 1 }

section

variable {expand : Text → Expansion Text} {target text : Text}

theorem not_limit_le (h : x.depth.toNat < x.limit.toNat) : ¬ x.limit ≤ x.depth := by
  rw [UInt64.le_iff_toNat_le]
  omega

/-- The depth of a step that is taken below the limit. -/
theorem toNat_depth_succ (h : x.depth.toNat < x.limit.toNat) :
    (x.depth + 1).toNat = x.depth.toNat + 1 := by
  have hlimit := x.limit.toNat_lt
  rw [UInt64.toNat_add, UInt64.toNat_one]
  omega

/-- Inside of an imported file there is one less room to cover. -/
theorem room_inside {room : Nat} (file : Identity) (h : x.depth.toNat < x.limit.toNat)
    (hroom : x.limit.toNat - x.depth.toNat ≤ room + 1) :
    (x.inside file).limit.toNat - (x.inside file).depth.toNat ≤ room := by
  have hdepth : (x.inside file).depth.toNat = x.depth.toNat + 1 := toNat_depth_succ h
  have hlimit : (x.inside file).limit = x.limit := rfl
  rw [hdepth, hlimit]
  omega

/-- At the limit a directive is refused, however its text would be expanded. -/
theorem run_importWith_of_limit_le (h : x.limit.toNat ≤ x.depth.toNat) :
    x.run (importWith expand target) = x.run (refuse target) := by
  rw [importWith, run_bind, run_get, pure_bind]
  exact congrArg x.run (if_pos (UInt64.le_iff_toNat_le.2 h))

theorem looks_importWith_unreadable {cause : Fault} (hdepth : x.depth.toNat < x.limit.toNat)
    (hread : d.read (x.base.join ⟨target⟩) = .error cause) :
    x.Looks (importWith expand target) d
      (.error (.importUnreadable (x.base.join ⟨target⟩) cause)) := by
  refine Looks.get.bind ?_
  rw [if_neg (not_limit_le hdepth)]
  exact (Looks.read_error _ hread).bind_error

theorem looks_importWith_open (hdepth : x.depth.toNat < x.limit.toNat)
    (hread : d.read (x.base.join ⟨target⟩) = .ok text)
    (hopen : x.chain.any (d.identity (x.base.join ⟨target⟩)).same = true) :
    x.Looks (importWith expand target) d (.error (.importCycle (x.base.join ⟨target⟩))) := by
  refine Looks.get.bind ?_
  rw [if_neg (not_limit_le hdepth)]
  refine (Looks.read _ hread).bind ((Looks.identify _).bind ?_)
  rw [if_pos hopen]
  exact (Looks.throw _).bind_error

/-- A file that is not open is expanded one level deeper, with the file on the chain. -/
theorem looks_importWith_closed {result : Except Failure Text}
    (hdepth : x.depth.toNat < x.limit.toNat)
    (hread : d.read (x.base.join ⟨target⟩) = .ok text)
    (hclosed : x.chain.any (d.identity (x.base.join ⟨target⟩)).same = false)
    (hinner : (x.inside (d.identity (x.base.join ⟨target⟩))).Looks (expand text) d result) :
    x.Looks (importWith expand target) d result := by
  refine Looks.get.bind ?_
  rw [if_neg (not_limit_le hdepth)]
  refine (Looks.read _ hread).bind ((Looks.identify _).bind ?_)
  rw [if_neg (by rw [hclosed]; decide)]
  refine (Looks.lift rfl).bind ((Looks.lift rfl).bind ?_)
  exact Looks.holding (Looks.deeper hinner)

end

/-! ## The program and the relation -/

/-- The expander does with every directive what the relation says: it fails as the relation
does, or it gives the text that the relation puts in its place. -/
def Follows (x : Expander) (d : Disk) (importFile : Text → Expansion Text) : Prop :=
  ∀ lexeme target,
    (∃ failure, x.Looks (importFile target) d (.error failure) ∧
      ∀ rest, ComesTo d x.base x.limit x.chain x.depth.toNat (.directive lexeme target :: rest)
        (.error failure)) ∨
    (∃ inlined, x.Looks (importFile target) d (.ok inlined) ∧
      ∀ rest result, ComesTo d x.base x.limit x.chain x.depth.toNat rest result →
        ComesTo d x.base x.limit x.chain x.depth.toNat (.directive lexeme target :: rest)
          (result.map (inlined ++ ·)))

/-- At the limit every directive is refused. -/
theorem follows_refuse (h : x.limit.toNat ≤ x.depth.toNat) : x.Follows d refuse := by
  intro lexeme target
  exact .inl ⟨_, Looks.get.bind (Looks.throw _), fun rest => .tooDeep h⟩

/-- Every directive is followed if, below the limit, the texts one level deeper are expanded as
the relation says. -/
theorem follows_importWith {expand : Text → Expansion Text}
    (hexpand : x.depth.toNat < x.limit.toNat → ∀ file text, ∃ result,
      ComesTo d x.base x.limit (x.chain ++ [file]) (x.depth + 1).toNat (scan text) result ∧
      (x.inside file).Looks (expand text) d result) :
    x.Follows d (importWith expand) := by
  intro lexeme target
  rcases Nat.lt_or_ge x.depth.toNat x.limit.toNat with h | h
  case inr =>
    -- the import is refused by its own check, whatever room there is below it
    have hrefuse := follows_refuse (d := d) h lexeme target
    simpa only [Looks, run_importWith_of_limit_le h] using hrefuse
  have hexpand := hexpand h
  rw [toNat_depth_succ h] at hexpand
  cases hread : d.read (x.base.join ⟨target⟩) with
  | error cause =>
    exact .inl ⟨_, looks_importWith_unreadable h hread, fun rest => .unreadable h hread⟩
  | ok text =>
    cases hopen : x.chain.any (d.identity (x.base.join ⟨target⟩)).same with
    | true =>
      exact .inl ⟨_, looks_importWith_open h hread hopen, fun rest => .cycle h hread hopen⟩
    | false =>
      obtain ⟨result, hinner, hlooks⟩ := hexpand (d.identity (x.base.join ⟨target⟩)) text
      have himport := looks_importWith_closed h hread hopen hlooks
      cases result with
      | error failure => exact .inl ⟨failure, himport, fun rest => .fail h hread hopen hinner⟩
      | ok inlined =>
        exact .inr ⟨inlined, himport, fun rest result => .inline h hread hopen hinner⟩

/-- One token of an expansion, and the tokens after it. -/
theorem flatten_mapM_cons {m : Type → Type} [Monad m] [LawfulMonad m] (f : Token → m Text)
    (token : Token) (rest : List Token) :
    List.flatten <$> (token :: rest).mapM f =
      f token >>= fun text => (text ++ ·) <$> (List.flatten <$> rest.mapM f) := by
  simp [List.mapM_cons, map_bind]

/-- The tokens of a text are expanded as the relation says if its directives are. -/
theorem looks_tokens {importFile : Text → Expansion Text} (h : x.Follows d importFile)
    (tokens : List Token) :
    ∃ result, ComesTo d x.base x.limit x.chain x.depth.toNat tokens result ∧
      x.Looks (List.flatten <$> tokens.mapM (spell importFile)) d result := by
  induction tokens with
  | nil => exact ⟨_, .nil, Looks.pure []⟩
  | cons token rest ih =>
    obtain ⟨result, hrest, hlooks⟩ := ih
    rw [flatten_mapM_cons]
    cases token with
    | literal lexeme => exact ⟨_, .keep rfl hrest, (Looks.pure lexeme).bind (hlooks.map _)⟩
    | device lexeme call => exact ⟨_, .keep rfl hrest, (Looks.pure lexeme).bind (hlooks.map _)⟩
    | directive lexeme target =>
      rcases h lexeme target with ⟨failure, himport, hfail⟩ | ⟨inlined, himport, hinline⟩
      · exact ⟨_, hfail rest, Looks.bind_error himport⟩
      · exact ⟨_, hinline rest result hrest, Looks.bind himport (hlooks.map _)⟩

/-- A text is expanded as the relation says, in any room that covers what is left below the
limit. -/
theorem looks_expand {room : Nat} (hroom : x.limit.toNat - x.depth.toNat ≤ room) (text : Text) :
    ∃ result, ComesTo d x.base x.limit x.chain x.depth.toNat (scan text) result ∧
      x.Looks (expand room text) d result := by
  induction room generalizing x text with
  | zero => exact looks_tokens (follows_refuse (by omega)) (scan text)
  | succ room ih =>
    refine looks_tokens (follows_importWith fun hdepth file inner => ?_) (scan text)
    exact ih (room_inside file hdepth hroom) inner

/-- The expansion of a text. -/
theorem looks_resolve (x : Expander) (d : Disk) (text : Text) :
    ∃ result, ComesTo d x.base x.limit x.chain x.depth.toNat (scan text) result ∧
      x.Looks (resolve text) d result := by
  obtain ⟨result, hcomes, hlooks⟩ := looks_expand (x := x) (d := d) (Nat.le_refl _) text
  exact ⟨result, hcomes, Looks.get.bind hlooks⟩

/-- A file that cannot be read has no expansion. -/
theorem looks_resolveFile_unreadable {path : Path} {cause : Fault}
    (hread : d.read path = .error cause) :
    x.Looks (resolveFile path) d (.error (.sourceUnreadable path cause)) :=
  (Looks.read_error _ hread).bind_error

/-- The expansion of a file is that of its text, with the file open. -/
theorem looks_resolveFile {path : Path} {text : Text} (hread : d.read path = .ok text) :
    ∃ result, ComesTo d x.base x.limit (x.chain ++ [d.identity path]) x.depth.toNat
        (scan text) result ∧
      x.Looks (resolveFile path) d result := by
  obtain ⟨result, hcomes, hlooks⟩ :=
    looks_resolve { x with chain := x.chain ++ [d.identity path] } d text
  refine ⟨result, hcomes, (Looks.read _ hread).bind ((Looks.identify path).bind ?_)⟩
  exact Looks.holding hlooks

/-! ## More room

The room stands for no check of the program.  With one more room an import is followed or refused
as before, since the depth decides, so any room that covers what is left below the limit gives the
run of `resolve`.  The runs are compared as a whole, with their requests. -/

/-- Two expansions run alike if their first parts do and their second parts do after that. -/
theorem run_bind_congr {e e' : Expansion α} {f f' : α → Expansion β} {result : Except Failure α}
    (hlooks : x.Looks e d result) (he : (x.run e).run d = (x.run e').run d)
    (hf : ∀ value, result = .ok value → (x.run (f value)).run d = (x.run (f' value)).run d) :
    (x.run (e >>= f)).run d = (x.run (e' >>= f')).run d := by
  obtain ⟨hvalue, hdisk⟩ := hlooks
  rw [run_bind, run_bind, Action.run_bind, Action.run_bind, ← he, hvalue, hdisk]
  cases result with
  | error failure => rfl
  | ok value => simp only [hf value rfl]

/-- Directives run alike if, below the limit, the texts one level deeper do. -/
theorem run_importWith_congr {expand expand' : Text → Expansion Text}
    (h : x.depth.toNat < x.limit.toNat → ∀ file text,
      ((x.inside file).run (expand text)).run d = ((x.inside file).run (expand' text)).run d)
    (target : Text) :
    (x.run (importWith expand target)).run d = (x.run (importWith expand' target)).run d := by
  rcases Nat.lt_or_ge x.depth.toNat x.limit.toNat with hdepth | hdepth
  case inr => rw [run_importWith_of_limit_le hdepth, run_importWith_of_limit_le hdepth]
  refine run_bind_congr Looks.get rfl ?_
  rintro _ ⟨⟩
  rw [if_neg (not_limit_le hdepth), if_neg (not_limit_le hdepth)]
  refine run_bind_congr ⟨rfl, rfl⟩ rfl fun text _ => ?_
  refine run_bind_congr (Looks.identify _) rfl fun file _ => ?_
  split
  · exact run_bind_congr (Looks.throw _) rfl nofun
  · refine run_bind_congr (Looks.lift rfl) rfl fun _ _ => ?_
    refine run_bind_congr (Looks.lift rfl) rfl fun _ _ => ?_
    have hinside := h hdepth file text
    rw [inside] at hinside
    rw [run_holding, run_holding, run_deeper, run_deeper]
    simp only [Action.run_bind, hinside]

/-- Texts run alike if their directives do. -/
theorem run_tokens_congr {importFile importFile' : Text → Expansion Text}
    (hfollows : x.Follows d importFile)
    (h : ∀ target, (x.run (importFile target)).run d = (x.run (importFile' target)).run d)
    (tokens : List Token) :
    (x.run (List.flatten <$> tokens.mapM (spell importFile))).run d =
      (x.run (List.flatten <$> tokens.mapM (spell importFile'))).run d := by
  induction tokens with
  | nil => rfl
  | cons token rest ih =>
    obtain ⟨result, -, hrest⟩ := looks_tokens hfollows rest
    have htail : ∀ text : Text,
        (x.run ((text ++ ·) <$> (List.flatten <$> rest.mapM (spell importFile)))).run d =
          (x.run ((text ++ ·) <$> (List.flatten <$> rest.mapM (spell importFile')))).run d := by
      intro text
      rw [map_eq_pure_bind, map_eq_pure_bind]
      exact run_bind_congr hrest ih fun _ _ => rfl
    rw [flatten_mapM_cons, flatten_mapM_cons]
    cases token with
    | literal lexeme => exact run_bind_congr (Looks.pure lexeme) rfl fun text _ => htail text
    | device lexeme call => exact run_bind_congr (Looks.pure lexeme) rfl fun text _ => htail text
    | directive lexeme target =>
      rcases hfollows lexeme target with ⟨_, himport, -⟩ | ⟨_, himport, -⟩ <;>
        exact run_bind_congr himport (h target) fun text _ => htail text

/-- Where the room covers what is left below the limit, one more changes nothing. -/
theorem run_expand_succ {room : Nat} (hroom : x.limit.toNat - x.depth.toNat ≤ room)
    (text : Text) : (x.run (expand room text)).run d = (x.run (expand (room + 1) text)).run d := by
  induction room generalizing x text with
  | zero =>
    -- the room is used up at the limit, where the check of an import refuses as well
    have hlimit : x.limit.toNat ≤ x.depth.toNat := by omega
    refine run_tokens_congr (follows_refuse hlimit) (fun target => ?_) (scan text)
    rw [run_importWith_of_limit_le hlimit]
  | succ room ih =>
    refine run_tokens_congr (follows_importWith fun hdepth file inner => ?_)
      (run_importWith_congr fun hdepth file inner => ?_) (scan text)
    · exact looks_expand (room_inside file hdepth hroom) inner
    · exact ih (room_inside file hdepth hroom) inner

/-- Any room that covers what is left below the limit gives the run of `resolve`. -/
theorem run_expand {room : Nat} (hroom : x.limit.toNat - x.depth.toNat ≤ room) (text : Text) :
    (x.run (expand room text)).run d = (x.run (resolve text)).run d := by
  induction hroom with
  | refl => rfl
  | step hroom ih => rw [← run_expand_succ hroom text, ih]

end Expander

end DeviceSheet
