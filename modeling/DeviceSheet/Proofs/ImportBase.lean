import DeviceSheet.Layout
import DeviceSheet.Proofs.PathComponents

/-!
# The directory that imports are taken from

Imports are taken from the directory of the main source, whatever the path of the source looks like:
with slashes in a row or at its end, with single dots, from the root, or a bare file name.

The directory around a path can be the empty path, which names no directory.  The base is a single
dot then, and also when there is no directory around the source at all (`Layout.baseDir_cases`).  So
the components of the base can be told from those of the source (`Layout.components_baseDir`), and
two spellings of one source have the same base.

* The base and the last name of the source make up the source again (`Layout.same_join_baseDir`).
  If that name is all of the source, they make up its spelling with a dot in front
  (`Layout.join_baseDir_of_single`).
* In the usual layout below a directory every path has the components of the directory at its front.
  So the layout tells the directory up to its spelling (`Layout.same_rooted_rooted`).
-/

namespace DeviceSheet

/-- The components of the directory that imports are taken from, by those of the main source. -/
def Component.base (source : List Component) : List Component :=
  match around? source with
  | some (c :: front) => c :: front
  | _ => [.here]

namespace Layout

variable (l : Layout)

/-! ## The base of a source -/

/-- The base is the directory around the source if that has a text, and a single dot otherwise. -/
theorem baseDir_cases :
    (∃ directory : Path, Component.around? l.source.components = some directory.components ∧
      directory.text ≠ [] ∧ l.baseDir = directory) ∨
    ((Component.around? l.source.components).getD [] = [] ∧ l.baseDir = .ofString ".") := by
  rw [← Path.components_parent?, baseDir, Path.directory?]
  cases l.source.parent? with
  | none => exact .inr ⟨rfl, rfl⟩
  | some directory =>
    by_cases hne : directory.text = []
    · refine .inr ⟨Path.components_eq_nil_iff.2 hne, ?_⟩
      rw [Option.filter_some_neg (by simpa using hne), Option.getD_none]
    · refine .inl ⟨directory, rfl, hne, ?_⟩
      rw [Option.filter_some_pos (by simpa using hne), Option.getD_some]

/-- The base is never the empty path. -/
theorem text_baseDir_ne_nil : l.baseDir.text ≠ [] := by
  rcases l.baseDir_cases with ⟨directory, -, hne, hbase⟩ | ⟨-, hbase⟩
  · rw [hbase]
    exact hne
  · rw [hbase]
    decide

/-- The components of the base depend on those of the source only. -/
theorem components_baseDir : l.baseDir.components = Component.base l.source.components := by
  rw [Component.base]
  rcases l.baseDir_cases with ⟨directory, haround, hne, hbase⟩ | ⟨haround, hbase⟩
  · obtain ⟨c, front, hfront⟩ := List.exists_cons_of_ne_nil (Path.components_ne_nil hne)
    rw [hbase, haround, hfront]
  · rw [hbase]
    split
    · next hsome =>
      rw [hsome] at haround
      cases haround
    · decide

variable {l}

/-- The base has all components of the source but the last one, if there is another one. -/
theorem components_baseDir_of_concat {front : List Component} {last : Component}
    (h : l.source.components = front ++ [last]) (hlast : last ≠ .root) (hfront : front ≠ []) :
    l.baseDir.components = front := by
  obtain ⟨c, front, rfl⟩ := List.exists_cons_of_ne_nil hfront
  rw [components_baseDir, h, Component.base, Component.around?_concat _ hlast]

/-! ## The last name of a source -/

/-- The base and the last name of the source make up the source again. -/
theorem same_join_baseDir {front : List Component} {text : Text}
    (h : l.source.components = front ++ [.name text]) (hfront : front ≠ []) :
    (l.baseDir.join ⟨text⟩).same l.source = true := by
  have hname : IsName text := Path.isName_of_mem_components (p := l.source) (by simp [h])
  rw [Path.same, Path.components_join_name hname,
    components_baseDir_of_concat h (by simp) hfront, h]
  exact decide_eq_true rfl

/-- The base of a bare name is the single dot. -/
theorem join_baseDir_of_single {text : Text} (h : l.source.components = [.name text]) :
    l.baseDir.join ⟨text⟩ = ⟨"./".toList ++ text⟩ := by
  have hname : IsName text := Path.isName_of_mem_components (p := l.source) (by simp [h])
  have haround : Component.around? l.source.components = some [] := by
    rw [h]
    exact Component.around?_concat [] (by simp)
  have hbase : l.baseDir = .ofString "." := by
    rcases l.baseDir_cases with ⟨directory, hsome, hne, -⟩ | ⟨-, hbase⟩
    · rw [haround, Option.some.injEq] at hsome
      exact absurd hsome.symm (Path.components_ne_nil hne)
    · exact hbase
  rw [hbase, Path.join, hname.isRooted]
  rfl

/-! ## The usual layout -/

theorem components_two_below {outer inner : Text} (houter : IsName outer) (hinner : IsName inner)
    (root : Path) :
    ((root.join ⟨outer⟩).join ⟨inner⟩).components =
      root.components ++ [.name outer, .name inner] := by
  rw [Path.components_join_name hinner, Path.components_join_name houter, List.append_assoc]
  rfl

/-- Two names below a directory tell the directory up to its spelling. -/
theorem same_two_below {outer inner : Text} (houter : IsName outer) (hinner : IsName inner)
    (root other : Path) :
    ((root.join ⟨outer⟩).join ⟨inner⟩).same ((other.join ⟨outer⟩).join ⟨inner⟩) =
      root.same other := by
  rw [Path.same, Path.same, components_two_below houter hinner, components_two_below houter hinner,
    decide_eq_decide]
  exact List.append_left_inj _

/-- The base of the usual layout is the directory of the main source. -/
theorem same_baseDir_rooted (root : Path) :
    (rooted root).baseDir.same (root.join (.ofString "dmcss")) = true := by
  have hsource : (rooted root).source.components =
      (root.join (.ofString "dmcss")).components ++ [.name "index.dmcss".toList] :=
    Path.components_join_name (by decide)
  have hbelow : (root.join (.ofString "dmcss")).components =
      root.components ++ [.name "dmcss".toList] :=
    Path.components_join_name (by decide)
  rw [Path.same, components_baseDir_of_concat hsource (by simp) (by simp [hbelow])]
  exact decide_eq_true rfl

/-- The usual layouts below two directories are the same exactly if the directories are. -/
theorem same_rooted_rooted (root other : Path) :
    (rooted root).same (rooted other) = root.same other := by
  have hsource : (rooted root).source.same (rooted other).source = root.same other :=
    same_two_below (by decide) (by decide) root other
  have hdevices : (rooted root).deviceDir.same (rooted other).deviceDir = root.same other :=
    same_two_below (by decide) (by decide) root other
  have hcss : (rooted root).cssOutput.same (rooted other).cssOutput = root.same other :=
    same_two_below (by decide) (by decide) root other
  have hscript : (rooted root).scriptOutput.same (rooted other).scriptOutput = root.same other :=
    same_two_below (by decide) (by decide) root other
  have hdepth : (rooted root).maxImportDepth = (rooted other).maxImportDepth := rfl
  rw [same, hsource, hdevices, hcss, hscript, decide_eq_true hdepth, Bool.and_self, Bool.and_self,
    Bool.and_self, Bool.and_true]

/-! ## Every spelling of a source -/

/-- Imports are taken from the directory of the main source for every spelling of its path.  The
base is never empty, makes up the source with its last name, and is the same for all spellings.  The
usual layout below a directory has its base there, and tells the directory up to its spelling. -/
theorem baseDir_of_every_spelling :
    (∀ l : Layout, l.baseDir.text ≠ [] ∧
      (∀ text, l.source.components.getLast? = some (.name text) →
        if l.source.components = [.name text] then l.baseDir.join ⟨text⟩ = ⟨"./".toList ++ text⟩
        else (l.baseDir.join ⟨text⟩).same l.source = true) ∧
      ∀ m : Layout, l.source.same m.source = true → l.baseDir.same m.baseDir = true) ∧
    ∀ root : Path, (rooted root).baseDir.same (root.join (.ofString "dmcss")) = true ∧
      ∀ other : Path, (rooted root).same (rooted other) = true ↔ root.same other = true := by
  refine ⟨fun l => ⟨l.text_baseDir_ne_nil, ?_, ?_⟩, fun root => ⟨same_baseDir_rooted root, ?_⟩⟩
  · intro text hlast
    obtain ⟨front, hfront⟩ := List.getLast?_eq_some_iff.1 hlast
    split
    · next hsingle => exact join_baseDir_of_single hsingle
    · next hmore =>
      refine same_join_baseDir hfront ?_
      rintro rfl
      exact hmore hfront
  · intro m hsame
    have hcomponents : l.source.components = m.source.components := of_decide_eq_true hsame
    rw [Path.same, components_baseDir, components_baseDir, hcomponents]
    exact decide_eq_true rfl
  · intro other
    rw [same_rooted_rooted]

/-- Two spellings of one source, a bare file name with a slash behind it, and a directory with a dot
and a slash behind it. -/
theorem baseDir_of_every_spelling_with_dots :
    let l : Layout := { standard with source := ⟨"./a//./b/.".toList⟩ }
    let m : Layout := { standard with source := ⟨"./a/b".toList⟩ }
    let bare : Layout := { standard with source := ⟨"b/".toList⟩ }
    let root : Path := ⟨"x/./".toList⟩
    (l.source.components.getLast? = some (.name ['b']) ∧ l.source.same m.source = true ∧
      bare.source.components = [.name ['b']] ∧ root.same ⟨['x']⟩ = true) ∧
    (l.baseDir.join ⟨['b']⟩).same l.source = true ∧ l.baseDir.same m.baseDir = true ∧
    bare.baseDir.join ⟨['b']⟩ = ⟨"./b".toList⟩ ∧ (rooted root).same (rooted ⟨['x']⟩) = true := by
  intro l m bare root
  have hinput : l.source.components.getLast? = some (.name ['b']) ∧
      l.source.same m.source = true ∧ bare.source.components = [.name ['b']] ∧
      root.same ⟨['x']⟩ = true := by
    decide +kernel
  obtain ⟨hlast, hsame, hbare, hroot⟩ := hinput
  obtain ⟨hsources, hroots⟩ := baseDir_of_every_spelling
  have hjoin := (hsources l).2.1 ['b'] hlast
  rw [if_neg (by decide +kernel)] at hjoin
  have hdot := (hsources bare).2.1 ['b'] (by rw [hbare]; rfl)
  rw [if_pos hbare] at hdot
  exact ⟨⟨hlast, hsame, hbare, hroot⟩, hjoin, (hsources l).2.2 m hsame, hdot,
    ((hroots root).2 _).2 hroot⟩

end Layout

end DeviceSheet
