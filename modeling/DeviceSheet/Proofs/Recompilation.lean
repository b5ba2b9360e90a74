import DeviceSheet.Proofs.Deliveries
import DeviceSheet.Proofs.Lookups

/-!
# Compiling a second time

A project that was compiled is compiled again.  The first delivery has made directories and a file,
perhaps behind a link that led nowhere.  If the file is none of those that were read, the second
delivery does nothing.

* What was read is read again.  It was found then, and what is found on a disk is found at the same
  place when the disk has grown.  The cycle check sees the same places as well
  (`Request.answer_of_found`).
* So compiling comes to the same (`Layout.looks_compile_of_grows`).
* The directory is there by now, and the file has the bytes that are written (`Puts.again`).
-/

namespace DeviceSheet

variable {d d' : Disk}

/-- A request that was served is served alike on a disk that has grown, if the file has the bytes
it had in case they are asked for. -/
theorem Request.answer_of_found {r : Request} (hfound : r.Found d) (hgrows : d.Grows d')
    (hkept : ∀ p q t, r = .read p → d.Holds p q t → d'.get? q = d.get? q) :
    (d'.serve r).1 = (d.serve r).1 := by
  cases r with
  | read p =>
    obtain ⟨t, ht⟩ := hfound
    obtain ⟨q, hq⟩ := Disk.read_eq_ok_iff.1 ht
    have hget := (hkept p q t rfl hq).trans hq.get?
    change d'.read p = d.read p
    rw [ht]
    exact Disk.read_eq_ok_iff.2 ⟨q, hq.grow hgrows hget⟩
  | locate p =>
    obtain ⟨t, ht⟩ := hfound
    obtain ⟨q, hq⟩ := Disk.read_eq_ok_iff.1 ht
    change d'.place? p = d.place? p
    rw [hq.place?, hq.place?_of_grows hgrows]
  | note => rfl
  | contains | makeDirs | write | append => cases hfound

/-- Compiling comes to the same on a disk that has grown, if the files that were read have the bytes
they had. -/
theorem Layout.looks_compile_of_grows {l : Layout} {c : Compiled}
    (hcompile : (l.compile.run d).value = .ok c) (hgrows : d.Grows d')
    (hkept : ∀ p q t, .read p ∈ (l.compile.run d).requests → d.Holds p q t →
      d'.get? q = d.get? q) : l.compile.Looks d' (.ok c) := by
  have hconsults := l.consults_compile (d := d)
  have hrun : l.compile.run d' = ⟨(l.compile.run d).value, d', (l.compile.run d).requests⟩ := by
    refine Action.run_of_answers fun r hr => ?_
    obtain ⟨hlook, hfound⟩ := hconsults r hr
    refine ⟨hlook, Request.answer_of_found (hfound ⟨c, hcompile⟩) hgrows ?_⟩
    rintro p q t rfl hholds
    exact hkept p q t hr hholds
  rw [Job.Looks, hrun]
  exact ⟨hcompile, rfl⟩

namespace Puts

variable {path : Path}

/-- Putting bytes changes what one place has, and the path leads there. -/
theorem grows {change : Bytes → Bytes} (h : Puts path change d (.ok ()) d') :
    d.Grows d' ∧ ∀ {p q t}, d.Holds p q t → d'.place? path ≠ some q → d'.get? q = d.get? q := by
  obtain ⟨d₁, hkeeps, hupdate⟩ := h.of_ok
  refine ⟨hkeeps.extends.grows.trans (Disk.grows_update hupdate), fun {p q t} hholds hother => ?_⟩
  obtain ⟨q', bytes, hne, -, rfl, hlocate⟩ := Disk.update_eq_ok hupdate
  have hplace : q ≠ q' := by
    rintro rfl
    exact hother (by rw [Disk.place?, hlocate])
  rw [Disk.get?_insert d₁ hne, if_neg hplace, hholds.get?]
  exact hkeeps.extends.get? hholds.get?

/-- Bytes that were put are put again without any change. -/
theorem again {bytes : Bytes} {result : Except Failure Unit} {d'' : Disk}
    (h : Puts path (fun _ => bytes) d (.ok ()) d') (h' : Puts path (fun _ => bytes) d' result d'') :
    result = .ok () ∧ d'' = d' := by
  cases h with
  | done hmade hupdate =>
    obtain ⟨q, _, -, -, -, hlocate⟩ := Disk.update_eq_ok hupdate
    have hwrite : d'.update path (fun _ => bytes) = .ok d' := Disk.write_of_locate hlocate
    have hthere : d'.makeDirs (path.directory?.getD ⟨[]⟩) = (.ok (), d') := by
      cases hdirectory : path.directory? with
      | none => rfl
      | some directory =>
        rw [hdirectory] at hmade
        have hne : directory.text ≠ [] := by
          simpa using (Option.filter_eq_some_iff.1 hdirectory).2
        have hdir := Disk.hasDir_makeDirs hne hmade
        exact Disk.makeDirs_of_hasDir ((Disk.grows_update hupdate).hasDir hdir)
    cases h' with
    | noDirectory hdirectory hfault =>
      rw [hdirectory] at hthere
      cases hthere.symm.trans hfault
    | notWritten hmade' hfault =>
      cases hthere.symm.trans hmade'
      cases hwrite.symm.trans hfault
    | done hmade' hupdate' =>
      cases hthere.symm.trans hmade'
      cases hwrite.symm.trans hupdate'
      exact ⟨rfl, rfl⟩

/-- A text that was put is delivered without any change. -/
theorem delivers {text : Text} {result : Except Failure Path} {d'' : Disk}
    (h : Puts path (fun _ => text.encode) d (.ok ()) d')
    (hdelivers : Delivers (.ok text) path d' result d'') : result = .ok path ∧ d'' = d' := by
  cases hdelivers with
  | notMade hfailure => cases hfailure
  | notPut hmade hputs =>
    cases hmade
    cases (h.again hputs).1
  | done hmade hputs =>
    cases hmade
    exact ⟨rfl, (h.again hputs).2⟩

end Puts

namespace Layout

/-- What is asked for in order to compile is asked for in order to deliver. -/
theorem mem_requests_compileTo {l : Layout} {output : Option Path} {r : Request}
    (h : r ∈ (l.compile.run d).requests) : r ∈ ((l.compileTo output).run d).requests := by
  unfold compileTo
  rw [Job.run_bind]
  cases (l.compile.run d).value with
  | error failure => exact h
  | ok c => exact List.mem_append_left _ h

/-- A project that was compiled to a path is compiled to it again without any change, if the path
leads to none of the files that were read. -/
theorem compileTo_again (l : Layout) (output : Option Path) (d : Disk) (path : Path)
    (h : ((l.compileTo output).run d).value = .ok path)
    (hother : ∀ p q, .read p ∈ ((l.compileTo output).run d).requests → d.place? p = some q →
      ((l.compileTo output).run d).disk.place? path ≠ some q) :
    (l.compileTo output).Looks ((l.compileTo output).run d).disk (.ok path) := by
  obtain ⟨hpath, c, hcompile, hputs⟩ := compileTo_eq_ok ⟨h, rfl⟩
  obtain ⟨hgrows, hkept⟩ := hputs.grows
  have hcompile' := looks_compile_of_grows hcompile hgrows fun p q t hread hholds =>
    hkept hholds (hother p q (mem_requests_compileTo hread) hholds.place?)
  have hsecond : Delivers ((l.compile.run _).value.map Compiled.stylesheet)
      (output.getD l.cssOutput) ((l.compileTo output).run d).disk _ _ :=
    delivers_compileTo ⟨rfl, rfl⟩
  rw [hcompile'.1, ← hpath] at hsecond
  exact hputs.delivers hsecond

/-- The first delivery makes a directory to step out of again, and the target of a link. -/
theorem compileTo_again_behind_link :
    let l : Layout := ⟨⟨"m".toList⟩, ⟨"d".toList⟩, ⟨"n/../l".toList⟩, ⟨[]⟩, 4⟩
    let d : Disk := ⟨[
      ([['m']], .file (Text.encode
        "@import \"x\";$$device(name: \"a\", width: 1, height: 2)".toList)),
      ([['x']], .file (Text.encode "y".toList)),
      ([['d']], .dir),
      ([['d'], "a.dmcss".toList], .file (Text.encode "b".toList)),
      ([['l']], .link ⟨"o".toList⟩)], []⟩
    let o := (l.compileTo none).run d
    (o.value = .ok l.cssOutput ∧ d.get? [['o']] = none ∧
      o.disk.place? l.cssOutput = some [['o']] ∧
      (o.requests.filterMap fun r => match r with
        | .read p => some p.toString
        | _ => none) = ["m", "./x", "d/a.dmcss"]) ∧
    (l.compileTo none).Looks o.disk (.ok l.cssOutput) := by
  intro l d o
  have hrun : o.value = .ok l.cssOutput ∧ d.get? [['o']] = none ∧
      o.disk.place? l.cssOutput = some [['o']] ∧
      (o.requests.filterMap fun r => match r with
        | .read p => some p.toString
        | _ => none) = ["m", "./x", "d/a.dmcss"] := by decide +kernel
  refine ⟨hrun, compileTo_again l none d l.cssOutput hrun.1 fun p q hread hplace => ?_⟩
  have hreads : (o.requests.all fun r => match r with
    | .read p => d.place? p ≠ some [['o']]
    | _ => true) = true := by decide +kernel
  have hp := List.all_eq_true.1 hreads _ hread
  change o.disk.place? l.cssOutput ≠ some q
  rw [hrun.2.2.1, ← hplace]
  exact Ne.symm (of_decide_eq_true hp)

end Layout

end DeviceSheet
