import DeviceSheet.Proofs.DiskGrowth

/-!
# One place, one text

A file is told from others by the place its path leads to.  Every path that can be
read leads to a place (`Disk.exists_place_of_read`), and two paths that lead to
the same place read the same text (`Disk.read_eq_of_same`).  So a file has one text
under all of its spellings.
-/

namespace DeviceSheet

theorem Identity.same_self (file : Identity) : file.same file = true := by
  cases file <;> simp [Identity.same, Path.same]

namespace Disk

/-- A path that can be read leads to a place with a file, and the text is that of the file. -/
theorem exists_place_of_read {d : Disk} {p : Path} {t : Text} (h : d.read p = .ok t) :
    ∃ place bytes, d.place? p = some place ∧ d.get? place = some (.file bytes) ∧
      Text.decode? bytes = some t := by
  obtain ⟨place, hplace⟩ := read_eq_ok_iff.1 h
  exact ⟨place, t.encode, hplace.place?, hplace.get?, Text.decode?_encode t⟩

/-- What tells the file of a path from others. -/
def identity (d : Disk) (p : Path) : Identity :=
  match d.place? p with
  | some place => .at place
  | none => .along p

theorem run_identify (d : Disk) (p : Path) :
    (Action.identify p).run d = ⟨d.identity p, d, [.locate p]⟩ := by
  rw [Action.identify, Action.run_bind, Action.run_request, identity]
  simp only [Disk.serve]
  cases d.place? p <;> rfl

/-- A file that can be read is told from others by its place. -/
theorem exists_identity_of_read {d : Disk} {p : Path} {t : Text} (h : d.read p = .ok t) :
    ∃ place bytes, d.identity p = .at place ∧ d.get? place = some (.file bytes) := by
  obtain ⟨place, bytes, hplace, hget, _⟩ := exists_place_of_read h
  exact ⟨place, bytes, by simp [identity, hplace], hget⟩

/-- Two paths that can be read and lead to the same file read the same text. -/
theorem read_eq_of_same {d : Disk} {p q : Path} {t u : Text} (hp : d.read p = .ok t)
    (hq : d.read q = .ok u) (h : (d.identity p).same (d.identity q) = true) : t = u := by
  obtain ⟨place, bytes, hplace, hget, hdecode⟩ := exists_place_of_read hp
  obtain ⟨place', bytes', hplace', hget', hdecode'⟩ := exists_place_of_read hq
  rw [identity, identity, hplace, hplace'] at h
  have heq : place = place' := by simpa [Identity.same] using h
  subst heq
  rw [hget] at hget'
  cases hget'
  rw [hdecode] at hdecode'
  exact Option.some.inj hdecode'

end Disk

end DeviceSheet
