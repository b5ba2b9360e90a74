import DeviceSheet.Proofs.CallSearch
import DeviceSheet.Proofs.PlainExpansion

/-!
# Inlining keeps the devices

An expanded text is scanned again, from its first character.  The text around an
inlined file may change how its neighbourhood is cut into tokens, so there may be more
calls than before: one half of a call can stand in a file and the other half after the
directive.  There are never fewer, and the order stays.

`Gathers` collects the calls of a text before it is expanded, file by file in the order of
the directives.  These calls, in this order, are among the calls of the expanded text
(`Gathers.sublist`).  The proof is by induction on the walk.  A call is found in the text it
was read from (`Token.Found`), and the calls of two texts are among the calls of their
concatenation (`calls_append_sublist`).
-/

namespace DeviceSheet

/-- The calls of the tokens and of the files they import, in source order.  A file counts once for
each directive that asks for it. -/
inductive Gathers (d : Disk) (base : Path) : List Token → List DeviceCall → Prop
  | nil : Gathers d base [] []
  | own {token : Token} {rest : List Token} {after : List DeviceCall}
      (htoken : token.isDirective = false)
      (hrest : Gathers d base rest after) :
      Gathers d base (token :: rest) (token.call?.toList ++ after)
  | imported {rest : List Token} {lexeme target text : Text} {inner after : List DeviceCall}
      (hread : d.read (base.join ⟨target⟩) = .ok text)
      (hinner : Gathers d base (scan text) inner)
      (hrest : Gathers d base rest after) :
      Gathers d base (.directive lexeme target :: rest) (inner ++ after)

variable {d : Disk} {base : Path} {tokens : List Token} {r : Text} {height : Nat}

/-- What can be expanded can be walked. -/
theorem Expands.exists_gathers (h : Expands d base tokens r height) :
    ∃ gathered, Gathers d base tokens gathered := by
  induction h with
  | nil => exact ⟨[], .nil⟩
  | keep htoken _ ih =>
    obtain ⟨after, hrest⟩ := ih
    exact ⟨_, .own htoken hrest⟩
  | inline hread _ _ ihinner ihrest =>
    obtain ⟨inner, hinner⟩ := ihinner
    obtain ⟨after, hrest⟩ := ihrest
    exact ⟨_, .imported hread hinner hrest⟩

/-! ## The call of a token -/

/-- The call of the token is found when its lexeme is scanned on its own. -/
def Token.Found (token : Token) : Prop := token.call?.toList.Sublist (calls token.lexeme)

theorem Token.found_of_fits {token : Token} {t : Text} (h : token.Fits t) : token.Found := by
  cases token with
  | literal lexeme => exact List.nil_sublist _
  | directive lexeme target => exact List.nil_sublist _
  | device lexeme call =>
    obtain ⟨rest, -, hspelling, -⟩ := h
    rw [Token.Found, Token.lexeme, calls_of_spelling hspelling]
    exact List.Sublist.refl _

theorem found_of_mem_scan {t : Text} {token : Token} (h : token ∈ scan t) : token.Found := by
  obtain ⟨rest, hnext⟩ := exists_next?_of_mem_scan h
  exact Token.found_of_fits (Token.fits_of_next? hnext)

/-! ## The calls of an expansion -/

/-- The calls of the files are among those of the expansion. -/
theorem Gathers.sublist {gathered : List DeviceCall} (hgathers : Gathers d base tokens gathered)
    (h : Expands d base tokens r height) (hfound : ∀ token ∈ tokens, token.Found) :
    gathered.Sublist (calls r) := by
  induction hgathers generalizing r height with
  | nil => exact List.nil_sublist _
  | @own token rest after htoken _ ih =>
    cases h with
    | inline => cases htoken
    | @keep _ _ r _ _ hrest =>
      have htail := ih hrest fun t ht => hfound t (List.mem_cons_of_mem _ ht)
      have hhead := hfound token List.mem_cons_self
      exact (List.Sublist.append hhead htail).trans (calls_append_sublist _ r)
  | imported hread _ _ ihinner ihrest =>
    cases h with
    | keep htoken => cases htoken
    | @inline _ _ _ _ inlined r _ _ hread' hinner hrest =>
      cases hread.symm.trans hread'
      -- the tokens of the file come from a scan of their own
      have hfile := ihinner hinner fun t ht => found_of_mem_scan ht
      have htail := ihrest hrest fun t ht => hfound t (List.mem_cons_of_mem _ ht)
      exact (List.Sublist.append hfile htail).trans (calls_append_sublist inlined r)

namespace Expander

/-- If a text is expanded, its import tree has been walked to the end, and the calls on the way
are among the calls of the result, in order. -/
theorem gathers_sublist_calls (x : Expander) (d : Disk) (s r : Text)
    (h : ((x.job (resolve s)).run d).value = .ok r) :
    (∃ gathered, Gathers d x.base (scan s) gathered) ∧
    ∀ gathered, Gathers d x.base (scan s) gathered → gathered.Sublist (calls r) := by
  obtain ⟨result, hcomes, hlooks⟩ := looks_resolve x d s
  rw [hlooks.job.1] at h
  subst h
  obtain ⟨height, -, hexpands⟩ := hcomes.expands
  refine ⟨hexpands.exists_gathers, ?_⟩
  intro gathered hgathers
  exact hgathers.sublist hexpands fun token htoken => found_of_mem_scan htoken

/-- The file holds a call and the first half of another, and the second half stands after the
directive. -/
theorem gathers_sublist_calls_halves :
    let part := "$$device(name:\"a\",width:1,height:2)$$device(name:\"b\",width:3,".toList
    let d : Disk := ⟨[([['m']], .file (Text.encode part))], []⟩
    let s := "@import \"m\";height:4)".toList
    let r := part ++ "height:4)".toList
    let x : Expander := { base := ⟨"/".toList⟩ }
    ((x.job (resolve s)).run d).value = .ok r ∧
      calls r = [⟨['a'], ['1'], ['2']⟩, ⟨['b'], ['3'], ['4']⟩] ∧
      (∃ gathered, Gathers d x.base (scan s) gathered) ∧
      ∀ gathered, Gathers d x.base (scan s) gathered → gathered.Sublist (calls r) := by
  intro part d s r x
  have h : ((x.job (resolve s)).run d).value = .ok r := by decide +kernel
  exact ⟨h, by decide +kernel, gathers_sublist_calls x d s r h⟩

end Expander

end DeviceSheet
