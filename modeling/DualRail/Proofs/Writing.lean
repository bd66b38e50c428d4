/-
  Files that are written.

  A path leads to one place in a file tree, and a text can be stored there if nothing
  but a file stands in this place (`FileTree.Creates`).  Writing succeeds exactly then
  (`FileTree.writeText_eq_ok_iff`).  What is written over is never a directory, so every
  way through the tree stays open, and whoever reads from the path afterwards finds the
  text (`FileTree.Creates.readText_put`).
-/
import DualRail.Files.Script
import DualRail.Proofs.Soundness

set_option autoImplicit false

namespace DualRail.Files.FileTree

/-- A path leads to a place where a file can be created or replaced: no directory and no
device stands there. -/
structure Creates (t : FileTree) (path : String) (place : Place) : Prop where
  leads : t.target path = .ok place
  free : ∀ content : Content, t.get? place = some content → content.isFile = true

variable {t : FileTree} {path : String} {place : Place}

/-! ## Writing -/

theorem writeAt_eq_ok_iff {text : String} {t' : FileTree} (h : t.get? place ≠ some .directory) :
    t.writeAt place text = .ok t' ↔
      (∀ content : Content, t.get? place = some content → content.isFile = true) ∧
        t.put place (.text text) = t' := by
  unfold writeAt
  cases hcontent : t.get? place with
  | none => simp
  | some content =>
      cases content with
      | directory => exact absurd hcontent h
      | text s => simp [Content.isFile]
      | binary bytes => simp [Content.isFile]
      | nullDevice => simp [Content.isFile]
      | fullDevice => simp [Content.isFile]

/-- The way to a place that can be written to.  Before its last name, every name leads to a
directory. -/
theorem target_eq_ok (h : t.target path = .ok place) :
    ∃ (p : Path) (names : List String) (last : String) (parent : Place),
      checkPath path = .ok p ∧ p.trailingSlash = false ∧ p.names = names ++ [last] ∧
        t.follow (t.start p) names = .ok parent ∧ t.step parent last = .ok place ∧
        t.get? place ≠ some .directory := by
  obtain ⟨p, hp, h⟩ := bind_eq_ok_iff.mp h
  cases hlast : p.names.getLast? with
  | none =>
      rw [hlast] at h
      cases h
  | some last =>
      rw [hlast] at h
      obtain ⟨parent, hparent, h⟩ := bind_eq_ok_iff.mp h
      obtain ⟨_, _, h⟩ := bind_eq_ok_iff.mp h
      split at h
      · cases h
      · rename_i hname
        obtain ⟨next, hnext, h⟩ := bind_eq_ok_iff.mp h
        split at h
        · cases h
        · rename_i hfree
          cases h
          have hslash : p.trailingSlash = false := by
            simpa using (not_or.mp hname).1
          have hnames : p.names = p.names.dropLast ++ [last] :=
            (List.dropLast_append_getLast? last hlast).symm
          exact ⟨p, _, last, parent, hp, hslash, hnames, hparent, hnext, hfree⟩

/-- Writing succeeds exactly where a file can be created, and puts the text there. -/
theorem writeText_eq_ok_iff {text : String} {t' : FileTree} :
    t.writeText path text = .ok t' ↔
      ∃ place : Place, t.Creates path place ∧ t.put place (.text text) = t' := by
  refine bind_eq_ok_iff.trans ?_
  constructor
  · rintro ⟨place, hplace, hwrite⟩
    obtain ⟨_, _, _, _, _, _, _, _, _, hfree⟩ := target_eq_ok hplace
    obtain ⟨hfile, rfl⟩ := (writeAt_eq_ok_iff hfree).mp hwrite
    exact ⟨place, ⟨hplace, hfile⟩, rfl⟩
  · rintro ⟨place, ⟨hplace, hfile⟩, rfl⟩
    obtain ⟨_, _, _, _, _, _, _, _, _, hfree⟩ := target_eq_ok hplace
    exact ⟨place, hplace, (writeAt_eq_ok_iff hfree).mpr ⟨hfile, rfl⟩⟩

/-! ## Reading what was written -/

theorem pathExists_of_readText {text : String} (h : t.readText path = .ok text) :
    t.pathExists path = true := by
  obtain ⟨content, hcontent, _⟩ := bind_eq_ok_iff.mp h
  rw [pathExists, hcontent]
  rfl

@[simp] theorem working_put (t : FileTree) (place : Place) (content : Content) :
    (t.put place content).working = t.working := by
  unfold put
  split
  · rfl
  · rfl

theorem checkDirectory_eq_ok_iff {u : Unit} :
    t.checkDirectory place = .ok u ↔ t.get? place = some .directory := by
  unfold checkDirectory expect
  cases t.get? place with
  | none => exact ⟨nofun, nofun⟩
  | some content =>
      cases content with
      | directory => exact ⟨fun _ => rfl, fun _ => rfl⟩
      | _ => exact ⟨nofun, nofun⟩

section Put

variable (hplace : t.get? place ≠ some .directory) (content : Content)

include hplace

theorem checkDirectory_put {other : Place} {u : Unit} (h : t.checkDirectory other = .ok u) :
    (t.put place content).checkDirectory other = .ok u := by
  rw [checkDirectory_eq_ok_iff] at h ⊢
  -- A directory is not where something is put.
  have hne : other ≠ place := by
    rintro rfl
    exact hplace h
  rw [get?_put_of_ne t content hne, h]

theorem step_put {start next : Place} {name : String} (h : t.step start name = .ok next) :
    (t.put place content).step start name = .ok next := by
  obtain ⟨_, hdirectory, hnext⟩ := bind_eq_ok_iff.mp h
  exact bind_eq_ok_iff.mpr ⟨_, checkDirectory_put hplace content hdirectory, hnext⟩

/-- What is put where no directory stands closes no way through the tree. -/
theorem follow_put {start next : Place} {names : List String}
    (h : t.follow start names = .ok next) :
    (t.put place content).follow start names = .ok next := by
  induction names generalizing start with
  | nil => exact h
  | cons name names ih =>
      obtain ⟨middle, hstep, hrest⟩ := bind_eq_ok_iff.mp h
      exact bind_eq_ok_iff.mpr ⟨middle, step_put hplace content hstep, ih hrest⟩

end Put

theorem follow_append {start middle next : Place} {names : List String} {last : String}
    (h : t.follow start names = .ok middle) (hlast : t.step middle last = .ok next) :
    t.follow start (names ++ [last]) = .ok next := by
  induction names generalizing start with
  | nil =>
      cases h
      exact bind_eq_ok_iff.mpr ⟨next, hlast, rfl⟩
  | cons name names ih =>
      obtain ⟨second, hstep, hrest⟩ := bind_eq_ok_iff.mp h
      exact bind_eq_ok_iff.mpr ⟨second, hstep, ih hrest⟩

/-- A text that was put where a path leads to is what the path leads to. -/
theorem Creates.readText_put (h : t.Creates path place) (text : String) :
    (t.put place (.text text)).readText path = .ok text := by
  obtain ⟨p, names, last, parent, hpath, hslash, hnames, hparent, hlast, hfree⟩ :=
    target_eq_ok h.leads
  have hstart : (t.put place (.text text)).start p = t.start p := by
    rw [start, start, working_put]
  have hfollow : (t.put place (.text text)).follow (t.start p) p.names = .ok place := by
    rw [hnames]
    exact follow_append (follow_put hfree _ hparent) (step_put hfree _ hlast)
  have hlookUp : (t.put place (.text text)).lookUp path = .ok (.text text) := by
    unfold lookUp expect
    rw [hpath]
    dsimp only [bind, Except.bind]
    rw [hstart, hfollow]
    dsimp only
    rw [get?_put_self]
    dsimp only
    rw [if_neg]
    · rfl
    · simp [hslash]
  exact bind_eq_ok_iff.mpr ⟨_, hlookUp, rfl⟩

end DualRail.Files.FileTree
