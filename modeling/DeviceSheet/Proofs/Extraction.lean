import DeviceSheet.Proofs.CallSearch
import DeviceSheet.Proofs.Reading

/-!
# What extraction takes and leaves

Extraction takes the calls out of a sheet.  What these are can be said without a scan.

* The calls are the matches of the rule for calls at all offsets of the sheet.  No two of
  them overlap.
* Extraction succeeds if every one of them has a readable fragment.  There is one device per
  match, in order, and the residual is the sheet without the characters of the matches.
* Otherwise the failure names the leftmost match whose fragment cannot be read.

The first part is the search of `DeviceSheet.Proofs.CallSearch`.  For the residual the
characters of a sheet are counted off along its tokens.
-/

namespace DeviceSheet

/-! ## The calls with their offsets -/

/-- The calls in the scan of a text, with the offsets they start at. -/
def callMatches (t : Text) : List CallMatch := (placed 0 (scan t)).filterMap CallMatch.ofPlaced?

namespace CallMatch

theorem ofPlaced?_eq_some {i : Nat} {token : Token} {m : CallMatch} :
    ofPlaced? (i, token) = some m ↔ i = m.start ∧ token = .device m.lexeme m.call := by
  cases token with
  | literal lexeme => simp [ofPlaced?]
  | directive lexeme path => simp [ofPlaced?]
  | device lexeme call =>
    obtain ⟨start, lexeme', call'⟩ := m
    simp [ofPlaced?]

theorem le_start_of_mem {start : Nat} {tokens : List Token} {m : CallMatch}
    (h : m ∈ (placed start tokens).filterMap ofPlaced?) : start ≤ m.start := by
  obtain ⟨⟨i, token⟩, hmem, hm⟩ := List.mem_filterMap.1 h
  obtain ⟨rfl, _⟩ := ofPlaced?_eq_some.1 hm
  exact le_of_mem_placed hmem

/-- Calls of one scan do not overlap. -/
theorem pairwise_stop_le_start (start : Nat) (tokens : List Token) :
    ((placed start tokens).filterMap ofPlaced?).Pairwise fun m n => m.stop ≤ n.start := by
  induction tokens generalizing start with
  | nil => exact List.Pairwise.nil
  | cons token tokens ih =>
    rw [placed_cons]
    cases hm : ofPlaced? (start, token) with
    | none =>
      rw [List.filterMap_cons_none hm]
      exact ih _
    | some m =>
      rw [List.filterMap_cons_some hm]
      refine List.Pairwise.cons ?_ (ih _)
      intro n hn
      obtain ⟨rfl, rfl⟩ := ofPlaced?_eq_some.1 hm
      exact le_start_of_mem hn

theorem mem_callMatches {t : Text} {m : CallMatch} : m ∈ callMatches t ↔ m.In t := by
  rw [callMatches, search_eq, mem_search]
  constructor
  · rintro ⟨i, hstart, hheads⟩
    rw [In, hstart, Nat.zero_add]
    exact hheads
  · intro h
    exact ⟨m.start, (Nat.zero_add _).symm, h⟩

theorem In.start_lt_stop {t : Text} {m : CallMatch} (h : m.In t) : m.start < m.stop := by
  obtain ⟨_, _, hspell, _⟩ := h
  obtain ⟨tail, htail, _⟩ := hspell.dollars
  rw [stop, htail]
  simp

/-- The calls of a scan are in order and do not overlap. -/
theorem pairwise_callMatches (t : Text) :
    (callMatches t).Pairwise fun m n => m.start < n.start ∧ m.stop ≤ n.start := by
  refine (pairwise_stop_le_start 0 (scan t)).imp_of_mem ?_
  intro m n hm _ hle
  have hlt := (mem_callMatches.1 hm).start_lt_stop
  exact ⟨by omega, hle⟩

/-! ## The residual -/

/-- The offset is one of a character of the match. -/
def Covers (m : CallMatch) (i : Nat) : Prop := m.start ≤ i ∧ i < m.stop

instance decidableCovers (m : CallMatch) (i : Nat) : Decidable (m.Covers i) :=
  inferInstanceAs (Decidable (_ ∧ _))

end CallMatch

/-- The characters of a text, which stands at the given offset, that no match covers. -/
def Text.uncovered (ms : List CallMatch) (start : Nat) (t : Text) : Text :=
  ((t.zipIdx start).filter fun c => ∀ m ∈ ms, ¬ m.Covers c.2).map Prod.fst

namespace Text

theorem uncovered_append (ms : List CallMatch) (start : Nat) (t u : Text) :
    uncovered ms start (t ++ u) = uncovered ms start t ++ uncovered ms (start + t.length) u := by
  simp only [uncovered, List.zipIdx_append, List.filter_append, List.map_append]

/-- Only matches that cover one of its offsets take something from a text. -/
theorem uncovered_congr {ms ns : List CallMatch} {start : Nat} {t : Text}
    (h : ∀ i, start ≤ i → i < start + t.length →
      ((∀ m ∈ ms, ¬ m.Covers i) ↔ ∀ m ∈ ns, ¬ m.Covers i)) :
    uncovered ms start t = uncovered ns start t := by
  rw [uncovered, uncovered]
  congr 1
  apply List.filter_congr
  intro c hc
  rw [decide_eq_decide]
  exact h c.2 (List.le_snd_of_mem_zipIdx hc) (List.snd_lt_add_of_mem_zipIdx hc)

theorem uncovered_nil (start : Nat) (t : Text) : uncovered [] start t = t := by
  simp [uncovered]

/-- A match takes all of its own text. -/
theorem uncovered_self {m : CallMatch} {ms : List CallMatch} (h : m ∈ ms) :
    uncovered ms m.start m.lexeme = [] := by
  rw [uncovered, List.map_eq_nil_iff, List.filter_eq_nil_iff]
  intro c hc hfree
  rw [decide_eq_true_eq] at hfree
  exact hfree m h ⟨List.le_snd_of_mem_zipIdx hc, List.snd_lt_add_of_mem_zipIdx hc⟩

end Text

/-- The text between the calls of a scan is what no call covers. -/
theorem uncovered_flatMap_lexeme (start : Nat) (tokens : List Token) :
    Text.uncovered ((placed start tokens).filterMap CallMatch.ofPlaced?) start
        (tokens.flatMap Token.lexeme) =
      (tokens.filter fun token => token.call?.isNone).flatMap Token.lexeme := by
  induction tokens generalizing start with
  | nil => rfl
  | cons token tokens ih =>
    have hlater : ∀ m ∈ (placed (start + token.lexeme.length) tokens).filterMap
        CallMatch.ofPlaced?, start + token.lexeme.length ≤ m.start :=
      fun m => CallMatch.le_start_of_mem
    rw [placed_cons, List.flatMap_cons, Text.uncovered_append]
    cases hm : CallMatch.ofPlaced? (start, token) with
    | none =>
      have hcall : token.call?.isNone = true := by
        cases token with
        | device lexeme call => cases hm
        | literal lexeme => rfl
        | directive lexeme path => rfl
      rw [List.filterMap_cons_none hm, ih, List.filter_cons, if_pos hcall, List.flatMap_cons]
      congr 1
      -- all later calls start behind the token
      calc
        _ = Text.uncovered [] start token.lexeme := by
          apply Text.uncovered_congr
          intro i _ hi
          refine ⟨fun _ => by simp, fun _ m hmem hcovers => ?_⟩
          have := hlater m hmem
          have := hcovers.1
          omega
        _ = token.lexeme := Text.uncovered_nil start token.lexeme
    | some m =>
      obtain ⟨rfl, rfl⟩ := CallMatch.ofPlaced?_eq_some.1 hm
      have hcall : ¬ (Token.device m.lexeme m.call).call?.isNone = true := by simp [Token.call?]
      rw [List.filterMap_cons_some hm, List.filter_cons, if_neg hcall, ← ih]
      rw [show (Token.device m.lexeme m.call).lexeme = m.lexeme from rfl,
        Text.uncovered_self (List.mem_cons_self ..), List.nil_append]
      apply Text.uncovered_congr
      intro i hi _
      have hpast : ¬ m.Covers i := fun hcovers => absurd hcovers.2 (Nat.not_lt.2 hi)
      simp [hpast]

theorem residual_eq_uncovered (t : Text) : residual t = Text.uncovered (callMatches t) 0 t := by
  have h := uncovered_flatMap_lexeme 0 (scan t)
  rw [flatMap_lexeme_scan] at h
  exact h.symm

/-! ## The run of an extraction -/

/-- The fragment of a call can be read. -/
def DeviceCall.Readable (d : Disk) (deviceDir : Path) (call : DeviceCall) : Prop :=
  ∃ fragment, d.read (fragmentPath deviceDir call.name) = .ok fragment

/-- The device of a call on a disk. -/
def DeviceCall.device (d : Disk) (deviceDir : Path) (call : DeviceCall) :
    Except Failure Device := do
  let path := fragmentPath deviceDir call.name
  let fragment ← (d.read path).mapError (.fragmentUnreadable call.name path)
  return .ofFragment call fragment

theorem DeviceCall.looks_load (d : Disk) (deviceDir : Path) (call : DeviceCall) :
    Job.Looks (call.load deviceDir) d (call.device d deviceDir) := by
  refine (Job.Looks.read _ _).bind fun fragment => ?_
  change Job.Looks _ d (.ok () >>= fun _ => .ok (Device.ofFragment call fragment))
  exact (Job.Looks.note _).bind fun _ => Job.Looks.pure _

theorem looks_extract (d : Disk) (deviceDir : Path) (t : Text) :
    Job.Looks (extract t deviceDir) d
      ((calls t).mapM (DeviceCall.device d deviceDir) >>= fun devices =>
        .ok ⟨devices, residual t⟩) :=
  (Job.Looks.mapM (DeviceCall.looks_load d deviceDir) (calls t)).bind fun _ => Job.Looks.pure _

theorem extract_eq_ok_iff {d : Disk} {deviceDir : Path} {t : Text} {e : Extraction} :
    ((extract t deviceDir).run d).value = .ok e ↔
      (calls t).mapM (DeviceCall.device d deviceDir) = .ok e.devices ∧ e.residual = residual t := by
  rw [(looks_extract d deviceDir t).1]
  obtain ⟨devices, residual⟩ := e
  cases (calls t).mapM (DeviceCall.device d deviceDir) with
  | error failure => simp [bind, Except.bind]
  | ok devices' => simp [bind, Except.bind, eq_comm]

theorem extract_eq_error_iff {d : Disk} {deviceDir : Path} {t : Text} {failure : Failure} :
    ((extract t deviceDir).run d).value = .error failure ↔
      (calls t).mapM (DeviceCall.device d deviceDir) = .error failure := by
  rw [(looks_extract d deviceDir t).1]
  cases (calls t).mapM (DeviceCall.device d deviceDir) with
  | error failure' => simp [bind, Except.bind]
  | ok devices => simp [bind, Except.bind]

theorem DeviceCall.device_eq_ok {d : Disk} {deviceDir : Path} {call : DeviceCall}
    {device : Device} :
    call.device d deviceDir = .ok device ↔
      ∃ fragment, d.read (fragmentPath deviceDir call.name) = .ok fragment ∧
        device = .ofFragment call fragment := by
  rw [DeviceCall.device]
  cases d.read (fragmentPath deviceDir call.name) with
  | ok fragment => simp [Except.mapError, bind, Except.bind, pure, Except.pure, eq_comm]
  | error cause => simp [Except.mapError, bind, Except.bind]

theorem DeviceCall.readable_of_device {d : Disk} {deviceDir : Path} {call : DeviceCall}
    {device : Device} (h : call.device d deviceDir = .ok device) : call.Readable d deviceDir := by
  obtain ⟨fragment, hread, _⟩ := device_eq_ok.1 h
  exact ⟨fragment, hread⟩

theorem DeviceCall.device_eq_error {d : Disk} {deviceDir : Path} {call : DeviceCall}
    {failure : Failure} :
    call.device d deviceDir = .error failure ↔
      ∃ cause, d.read (fragmentPath deviceDir call.name) = .error cause ∧
        failure = .fragmentUnreadable call.name (fragmentPath deviceDir call.name) cause := by
  rw [DeviceCall.device]
  cases d.read (fragmentPath deviceDir call.name) with
  | ok fragment => simp [Except.mapError, bind, Except.bind, pure, Except.pure]
  | error cause => simp [Except.mapError, bind, Except.bind, eq_comm]

theorem callMatches_map_call (t : Text) : (callMatches t).map CallMatch.call = calls t := by
  rw [callMatches, CallMatch.map_call_ofPlaced?, calls]

/-- An extraction that succeeds has one device per match, in order, and leaves what no match
covers. -/
theorem extract_eq_ok {d : Disk} {deviceDir : Path} {t : Text} {e : Extraction}
    (h : ((extract t deviceDir).run d).value = .ok e) :
    List.Forall₂ (fun m device => ∃ fragment,
        d.read (fragmentPath deviceDir m.call.name) = .ok fragment ∧
        device = Device.ofFragment m.call fragment) (callMatches t) e.devices ∧
      e.residual = Text.uncovered (callMatches t) 0 t := by
  obtain ⟨hdevices, hresidual⟩ := extract_eq_ok_iff.1 h
  rw [mapM_eq_ok_iff, ← callMatches_map_call, List.forall₂_map_left_iff] at hdevices
  rw [residual_eq_uncovered] at hresidual
  exact ⟨hdevices.imp fun _ _ => DeviceCall.device_eq_ok.1, hresidual⟩

/-- An extraction that succeeds has read the fragment of every match. -/
theorem readable_of_extract_eq_ok {d : Disk} {deviceDir : Path} {t : Text} {e : Extraction}
    (h : ((extract t deviceDir).run d).value = .ok e) {m : CallMatch} (hm : m.In t) :
    m.call.Readable d deviceDir := by
  have hmem : m.call ∈ calls t := by
    rw [← callMatches_map_call]
    exact List.mem_map_of_mem (CallMatch.mem_callMatches.2 hm)
  obtain ⟨device, hdevice⟩ := exists_ok_of_mapM_eq_ok (extract_eq_ok_iff.1 h).1 hmem
  exact DeviceCall.readable_of_device hdevice

/-- An extraction that fails names the leftmost match whose fragment cannot be read. -/
theorem extract_eq_error {d : Disk} {deviceDir : Path} {t : Text} {failure : Failure}
    (h : ((extract t deviceDir).run d).value = .error failure) :
    ∃ m : CallMatch, m.In t ∧
      (∀ n : CallMatch, n.In t → n.start < m.start → n.call.Readable d deviceDir) ∧
      ∃ cause, d.read (fragmentPath deviceDir m.call.name) = .error cause ∧
        failure = .fragmentUnreadable m.call.name (fragmentPath deviceDir m.call.name) cause := by
  obtain ⟨before, call, after, hcalls, hbefore, hcall⟩ :=
    mapM_eq_error (extract_eq_error_iff.1 h)
  rw [← callMatches_map_call, List.map_eq_append_iff] at hcalls
  obtain ⟨ms, ns, hsplit, rfl, hns⟩ := hcalls
  obtain ⟨m, ns, rfl, rfl, rfl⟩ := List.map_eq_cons_iff.1 hns
  have hm : m ∈ callMatches t := by simp [hsplit]
  refine ⟨m, CallMatch.mem_callMatches.1 hm, ?_, DeviceCall.device_eq_error.1 hcall⟩
  intro n hn hlt
  have hn' := CallMatch.mem_callMatches.2 hn
  have horder := CallMatch.pairwise_callMatches t
  rw [hsplit] at hn' horder
  -- what stands from `m` on does not start to the left of `m`
  rcases List.mem_append.1 hn' with hleft | hright
  · obtain ⟨device, hdevice⟩ := hbefore n.call (List.mem_map_of_mem hleft)
    exact DeviceCall.readable_of_device hdevice
  · exfalso
    have hlater := (List.pairwise_cons.1 (List.pairwise_append.1 horder).2.1).1
    rcases List.mem_cons.1 hright with rfl | hright
    · exact Nat.lt_irrefl _ hlt
    · have := (hlater n hright).1
      omega

/-- The calls a scan finds are all matches of the rule for calls, and extraction goes by
them. -/
theorem extract_exact (t : Text) :
    (callMatches t).Pairwise (fun m n => m.start < n.start ∧ m.stop ≤ n.start) ∧
    (∀ m, m ∈ callMatches t ↔ m.In t) ∧
    ∀ (d : Disk) (deviceDir : Path),
      ((∃ e, ((extract t deviceDir).run d).value = .ok e) ↔
        ∀ m : CallMatch, m.In t → m.call.Readable d deviceDir) ∧
      (∀ e, ((extract t deviceDir).run d).value = .ok e →
        List.Forall₂ (fun m device => ∃ fragment,
            d.read (fragmentPath deviceDir m.call.name) = .ok fragment ∧
            device = Device.ofFragment m.call fragment) (callMatches t) e.devices ∧
        e.residual = Text.uncovered (callMatches t) 0 t) ∧
      (∀ failure, ((extract t deviceDir).run d).value = .error failure →
        ∃ m : CallMatch, m.In t ∧
          (∀ n : CallMatch, n.In t → n.start < m.start → n.call.Readable d deviceDir) ∧
          ∃ cause, d.read (fragmentPath deviceDir m.call.name) = .error cause ∧
            failure =
              .fragmentUnreadable m.call.name (fragmentPath deviceDir m.call.name) cause) := by
  refine ⟨CallMatch.pairwise_callMatches t, fun m => CallMatch.mem_callMatches, ?_⟩
  intro d deviceDir
  refine ⟨⟨?_, ?_⟩, fun e => extract_eq_ok, fun failure => extract_eq_error⟩
  · rintro ⟨e, he⟩ m hm
    exact readable_of_extract_eq_ok he hm
  · intro hall
    cases hvalue : ((extract t deviceDir).run d).value with
    | ok e => exact ⟨e, rfl⟩
    | error failure =>
      exfalso
      obtain ⟨m, hm, _, cause, hcause, _⟩ := extract_eq_error hvalue
      obtain ⟨fragment, hread⟩ := hall m hm
      rw [hread] at hcause
      cases hcause

end DeviceSheet
