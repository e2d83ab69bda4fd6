/-
# What changes in a tree of files

A file that is written changes one entry, and a directory that is made adds one.  What a tree answers
for a name in a directory depends on its directories and on one entry, so that all other files are
read and written as before.

* `FileTree.KeepsDirectories` : ways through a tree stay open if its directories stay;
* `FileTree.AgreesBut` : two trees with the same directories that differ in some files only;
* `FileTree.AgreesBut.read_eq`, `FileTree.AgreesBut.read_eq_ok_iff` : other files stay as they are;
* `FileTree.Footprint` : a tree with some more directories, and some files written;
* `FileTree.footprint_put`, `FileTree.stored_of_write`, `FileTree.writableAt_of_write` : what a write
  leaves;
* `FileTree.IsOnTheWay`, `FileTree.footprint_createDirectories` : which directories are made;
* `World.exists_directory_createDirectories` : a directory that was created is there.
-/
import QueryPipeline.Proofs.FileAccess

namespace QueryPipeline

namespace FileTree

variable {t t' t'' : FileTree} {here there l : Location} {name : String}

/-! ## Trees with more directories -/

/-- The second tree has the directories of the first, and maybe more. -/
structure KeepsDirectories (t t' : FileTree) : Prop where
  workingDirectory_eq : t'.workingDirectory = t.workingDirectory
  directoryAt_eq : ∀ {l access}, t.directoryAt l = some access → t'.directoryAt l = some access

namespace KeepsDirectories

variable (h : KeepsDirectories t t')

include h

theorem isSome_directoryAt (hl : (t.directoryAt l).isSome) : (t'.directoryAt l).isSome := by
  obtain ⟨access, haccess⟩ := Option.isSome_iff_exists.1 hl
  rw [h.directoryAt_eq haccess]
  rfl

theorem next_eq_ok {step : String} (hnext : t.next here step = .ok there) :
    t'.next here step = .ok there := by
  obtain ⟨hsearch, hthere⟩ := next_eq_ok_iff.1 hnext
  obtain ⟨access, haccess, hsearch⟩ := (Option.any_eq_true _ _).1 hsearch
  refine next_eq_ok_iff.2 ⟨?_, hthere⟩
  rw [h.directoryAt_eq haccess]
  exact hsearch

theorem enter_eq_ok {step : String} (henter : t.enter here step = .ok there) :
    t'.enter here step = .ok there := by
  obtain ⟨hnext, hthere⟩ := enter_eq_ok_iff.1 henter
  exact enter_eq_ok_iff.2 ⟨h.next_eq_ok hnext, h.isSome_directoryAt hthere⟩

/-- **A walk through directories** goes the same way in a tree that has them too. -/
theorem walk_eq_ok {steps : List String} (hwalk : t.walk here steps = .ok l) :
    t'.walk here steps = .ok l := by
  induction steps generalizing here with
  | nil => exact hwalk
  | cons step steps ih =>
    obtain ⟨there, henter, hwalk⟩ := walk_cons_eq_ok_iff.1 hwalk
    exact walk_cons_eq_ok_iff.2 ⟨there, h.enter_eq_ok henter, ih hwalk⟩

theorem start_eq (route : Route) : t'.start route = t.start route := by
  rw [start, start, h.workingDirectory_eq]

theorem locate_eq_ok {route : Route} (hlocate : t.locate route = .ok l) :
    t'.locate route = .ok l := by
  rcases List.eq_nil_or_concat' route.steps with hnil | ⟨front, last, hsteps⟩
  · rw [locate_nil hnil] at hlocate ⊢
    rw [← hlocate, h.start_eq route]
  · rw [locate_concat hsteps, bind_eq_ok_iff] at hlocate ⊢
    obtain ⟨here, hwalk, hnext⟩ := hlocate
    rw [h.start_eq route]
    exact ⟨here, h.walk_eq_ok hwalk, h.next_eq_ok hnext⟩

theorem resolve_eq_ok {path : String} {slash : Bool} (hresolve : t.resolve path = .ok (l, slash)) :
    t'.resolve path = .ok (l, slash) := by
  obtain ⟨route, hroute, hlocate, hslash⟩ := resolve_eq_ok_iff.1 hresolve
  exact resolve_eq_ok_iff.2 ⟨route, hroute, h.locate_eq_ok hlocate, hslash⟩

theorem directory_eq_ok {d : String} (hhere : t.directory d = .ok here) :
    t'.directory d = .ok here := by
  rw [directory] at hhere ⊢
  split at hhere
  next hempty => rw [if_pos hempty, h.workingDirectory_eq, hhere]
  next hempty =>
    obtain ⟨route, hroute, hwalk⟩ := bind_eq_ok_iff.1 hhere
    rw [if_neg hempty]
    refine bind_eq_ok_iff.2 ⟨route, hroute, ?_⟩
    rw [h.start_eq route]
    exact h.walk_eq_ok hwalk

end KeepsDirectories

/-! ## Trees that differ in some files -/

/-- The second tree has the directories of the first and no more, and the same entries but for some
locations. -/
structure AgreesBut (changed : Location → Prop) (t t' : FileTree) : Prop where
  workingDirectory_eq : t'.workingDirectory = t.workingDirectory
  directoryAt_eq : ∀ l, t'.directoryAt l = t.directoryAt l
  lookup_eq : ∀ l, ¬ changed l → t'.lookup l = t.lookup l

namespace AgreesBut

variable {changed changed' : Location → Prop}

theorem refl (changed : Location → Prop) (t : FileTree) : AgreesBut changed t t :=
  ⟨rfl, fun _ => rfl, fun _ _ => rfl⟩

theorem trans (h : AgreesBut changed t t') (h' : AgreesBut changed t' t'') :
    AgreesBut changed t t'' :=
  ⟨h'.workingDirectory_eq.trans h.workingDirectory_eq,
    fun l => (h'.directoryAt_eq l).trans (h.directoryAt_eq l),
    fun l hl => (h'.lookup_eq l hl).trans (h.lookup_eq l hl)⟩

theorem mono (h : AgreesBut changed t t') (hsub : ∀ l, changed l → changed' l) :
    AgreesBut changed' t t' :=
  ⟨h.workingDirectory_eq, h.directoryAt_eq, fun l hl => h.lookup_eq l fun hc => hl (hsub l hc)⟩

theorem keeps (h : AgreesBut changed t t') : KeepsDirectories t t' :=
  ⟨h.workingDirectory_eq, fun {l _} hl => (h.directoryAt_eq l).trans hl⟩

theorem keeps_symm (h : AgreesBut changed t t') : KeepsDirectories t' t :=
  ⟨h.workingDirectory_eq.symm, fun {l _} hl => (h.directoryAt_eq l).symm.trans hl⟩

/-- Trees with the same directories find them at the same locations. -/
theorem directory_eq_ok_iff (h : AgreesBut changed t t') {d : String} :
    t'.directory d = .ok here ↔ t.directory d = .ok here :=
  ⟨h.keeps_symm.directory_eq_ok, h.keeps.directory_eq_ok⟩

theorem next_eq (h : AgreesBut changed t t') (here : Location) (step : String) :
    t'.next here step = t.next here step := by
  rw [next, next, h.directoryAt_eq]

theorem contentAt_eq (h : AgreesBut changed t t') (hl : ¬ changed l) :
    t'.contentAt l = t.contentAt l := by
  rw [contentAt, contentAt, h.lookup_eq l hl]

/-- **A file in a directory that is there** reads the same, or fails the same, if it is none of those
that may differ. -/
theorem read_eq (h : AgreesBut changed t t') {d : String} (hname : IsName name)
    (hhere : t.directory d = .ok here) (hunchanged : ¬ changed (here ++ [name])) :
    t'.read (joinPath d name) = t.read (joinPath d name) := by
  rw [read_joinPath t d hname, read_joinPath t' d hname, hhere, h.directory_eq_ok_iff.2 hhere]
  show t'.next here name >>= t'.contentAt = t.next here name >>= t.contentAt
  rw [h.next_eq here name]
  cases hnext : t.next here name with
  | error e => rfl
  | ok there =>
    rw [next_of_isName hname (next_eq_ok_iff.1 hnext).1] at hnext
    obtain rfl := Except.ok.inj hnext
    exact h.contentAt_eq hunchanged

/-- **A file that can be read** can be read in the other tree too, if it is none of those that may
differ.  (The reasons why a file cannot be read may differ: where nothing was, a file now bars the
way.) -/
theorem read_eq_ok_iff (h : AgreesBut changed t t') {d : String} (hname : IsName name)
    (hunchanged : ∀ here, ¬ changed (here ++ [name])) {bytes : ByteArray} :
    t'.read (joinPath d name) = .ok bytes ↔ t.read (joinPath d name) = .ok bytes := by
  rw [read_joinPath_eq_ok_iff hname, read_joinPath_eq_ok_iff hname]
  refine exists_congr fun here => ?_
  rw [h.directory_eq_ok_iff, h.directoryAt_eq, h.contentAt_eq (hunchanged here)]

/-- **What is stored in a file** stays there, if it is none of those that may differ. -/
theorem stored_eq_some (h : AgreesBut changed t t') {path : String} {bytes : ByteArray}
    (hstored : t.stored path = some bytes)
    (hunchanged : ∀ l, t.resolve path = .ok (l, false) → ¬ changed l) :
    t'.stored path = some bytes := by
  obtain ⟨l, hl, hbytes⟩ := stored_eq_some_iff.1 hstored
  refine stored_eq_some_iff.2 ⟨l, h.keeps.resolve_eq_ok hl, ?_⟩
  rw [bytesAt, h.lookup_eq l (hunchanged l hl)]
  exact hbytes

end AgreesBut

/-! ## Trees with more directories and files -/

/-- The second tree comes from the first by making directories where nothing was, and by writing
files where no directory was, each at some locations only.  All may be done with what is new, and a
file that is written again keeps its access. -/
structure Footprint (made written : Location → Prop) (t t' : FileTree) : Prop where
  workingDirectory_eq : t'.workingDirectory = t.workingDirectory
  lookup_cases : ∀ l, t'.lookup l = t.lookup l ∨
    (made l ∧ t.lookup l = none ∧ t'.lookup l = some .directory) ∨
    (written l ∧ t.directoryAt l = none ∧ ∃ bytes, t'.lookup l = some (.file bytes (t.accessAt l)))

namespace Footprint

variable {made written made' written' : Location → Prop}

theorem refl (made written : Location → Prop) (t : FileTree) : Footprint made written t t :=
  ⟨rfl, fun _ => Or.inl rfl⟩

theorem mono (h : Footprint made written t t') (hmade : ∀ l, made l → made' l)
    (hwritten : ∀ l, written l → written' l) : Footprint made' written' t t' := by
  refine ⟨h.workingDirectory_eq, ?_⟩
  intro l
  rcases h.lookup_cases l with heq | ⟨hl, hnone, hdir⟩ | ⟨hl, hdir, hfile⟩
  · exact Or.inl heq
  · exact Or.inr (Or.inl ⟨hmade l hl, hnone, hdir⟩)
  · exact Or.inr (Or.inr ⟨hwritten l hl, hdir, hfile⟩)

/-- Directories stay. -/
theorem keeps (h : Footprint made written t t') : KeepsDirectories t t' := by
  refine ⟨h.workingDirectory_eq, ?_⟩
  intro l access hl
  rcases h.lookup_cases l with heq | ⟨-, hnone, -⟩ | ⟨-, hdir, -⟩
  · rw [directoryAt, heq]
    exact hl
  · rw [directoryAt_eq_some_iff.1 hl] at hnone
    cases hnone
  · rw [hl] at hdir
    cases hdir

/-- Footprints add up: nothing is written over a directory, and no directory is made where something
is already. -/
theorem trans (h : Footprint made written t t') (h' : Footprint made written t' t'') :
    Footprint made written t t'' := by
  refine ⟨h'.workingDirectory_eq.trans h.workingDirectory_eq, ?_⟩
  intro l
  rcases h'.lookup_cases l with heq' | ⟨hmade', hnone', hdir'⟩ | ⟨hwritten', hdir', bytes', hfile'⟩
  · rw [heq']
    exact h.lookup_cases l
  · rcases h.lookup_cases l with heq | ⟨-, -, hdir⟩ | ⟨-, -, bytes, hfile⟩
    · exact Or.inr (Or.inl ⟨hmade', heq ▸ hnone', hdir'⟩)
    · rw [hdir] at hnone'
      cases hnone'
    · rw [hfile] at hnone'
      cases hnone'
  · rcases h.lookup_cases l with heq | ⟨-, -, hdir⟩ | ⟨-, hdir, bytes, hfile⟩
    · rw [directoryAt, heq, ← directoryAt] at hdir'
      rw [accessAt, heq, ← accessAt] at hfile'
      exact Or.inr (Or.inr ⟨hwritten', hdir', bytes', hfile'⟩)
    · rw [directoryAt_eq_some_iff.2 hdir] at hdir'
      cases hdir'
    · have haccess : t'.accessAt l = t.accessAt l := by
        rw [accessAt, hfile]
        rfl
      exact Or.inr (Or.inr ⟨hwritten', hdir, bytes', haccess ▸ hfile'⟩)

/-- Where nothing is written, the files are the same. -/
theorem file_iff (h : Footprint made written t t') (hl : ¬ written l) (bytes : ByteArray)
    (access : Access) :
    t'.lookup l = some (.file bytes access) ↔ t.lookup l = some (.file bytes access) := by
  rcases h.lookup_cases l with heq | ⟨-, hnone, hdir⟩ | ⟨hwritten, -⟩
  · rw [heq]
  · rw [hnone, hdir]
    simp
  · exact absurd hwritten hl

/-- Where nothing is made or written, nothing changes. -/
theorem lookup_eq (h : Footprint made written t t') (hmade : ¬ made l) (hwritten : ¬ written l) :
    t'.lookup l = t.lookup l := by
  rcases h.lookup_cases l with heq | ⟨hl, -⟩ | ⟨hl, -⟩
  · exact heq
  · exact absurd hl hmade
  · exact absurd hl hwritten

/-- If no directory is made, the directories are the same. -/
theorem agreesBut (h : Footprint (fun _ => False) written t t') : AgreesBut written t t' := by
  refine ⟨h.workingDirectory_eq, ?_, fun l hl => h.lookup_eq id hl⟩
  intro l
  rcases h.lookup_cases l with heq | ⟨hmade, -⟩ | ⟨-, hdir, bytes, hfile⟩
  · rw [directoryAt, heq]
    rfl
  · exact hmade.elim
  · rw [hdir, directoryAt, hfile]

end Footprint

/-! ## Files that are written -/

/-- **A write leaves one file**, at the location that can be written. -/
theorem footprint_put {path : String} (h : t.writable path = .ok l) (bytes : ByteArray) :
    Footprint (fun _ => False) (· = l) t (t.put l (.file bytes (t.accessAt l))) := by
  refine ⟨workingDirectory_put t l _, ?_⟩
  intro there
  by_cases hl : l = there
  · subst hl
    exact Or.inr (Or.inr ⟨rfl, (writable_eq_ok_iff.1 h).2.1, bytes,
      lookup_put_self (admits_of_writable h _ _)⟩)
  · exact Or.inl (lookup_put_of_ne hl)

theorem footprint_write {d text : String} (hname : IsName name)
    (h : t.write (joinPath d name) text = .ok t') :
    ∃ here, t.directory d = .ok here ∧ Footprint (fun _ => False) (· = here ++ [name]) t t' := by
  obtain ⟨l, hl, rfl⟩ := write_eq_ok_iff.1 h
  obtain ⟨here, hhere, rfl⟩ := exists_of_resolve_joinPath hname (writable_eq_ok_iff.1 hl).1
  exact ⟨here, hhere, footprint_put hl _⟩

/-- **What is written is stored.** -/
theorem stored_of_write {path text : String} (h : t.write path text = .ok t') :
    t'.stored path = some text.toUTF8 := by
  obtain ⟨l, hl, rfl⟩ := write_eq_ok_iff.1 h
  have hresolve := (footprint_put hl text.toUTF8).keeps.resolve_eq_ok (writable_eq_ok_iff.1 hl).1
  exact stored_eq_some_iff.2 ⟨l, hresolve,
    bytesAt_eq_some_iff.2 ⟨_, lookup_put_self (admits_of_writable hl _ _)⟩⟩

/-- **A write makes no difference to what can be written**: a file that is there keeps its access, and a
new one can be written again. -/
theorem writableAt_of_write {path text : String} (h : t.write path text = .ok t')
    (there : Location) : t'.writableAt there = t.writableAt there := by
  obtain ⟨l, hl, rfl⟩ := write_eq_ok_iff.1 h
  have hfootprint := footprint_put hl text.toUTF8
  obtain ⟨-, hfree, hmay⟩ := writable_eq_ok_iff.1 hl
  rw [writableAt, writableAt, hfootprint.agreesBut.directoryAt_eq]
  suffices hsame : (t.put l (.file text.toUTF8 (t.accessAt l))).mayWrite there = t.mayWrite there by
    rw [hsame]
  by_cases heq : l = there
  · subst heq
    rw [hmay, mayWrite, lookup_put_self (admits_of_writable hl _ _)]
    show (t.accessAt l).write = true
    rw [accessAt]
    rw [mayWrite] at hmay
    cases hlookup : t.lookup l with
    | none => rfl
    | some e =>
      rw [hlookup] at hmay
      exact hmay
  · rw [mayWrite, mayWrite, lookup_put_of_ne heq, hfootprint.agreesBut.directoryAt_eq]

theorem writable_of_write {d name' text : String} (hname : IsName name) (hname' : IsName name')
    (h : t.write (joinPath d name) text = .ok t') :
    t'.writable (joinPath d name') = t.writable (joinPath d name') := by
  obtain ⟨here, hhere, hfootprint⟩ := footprint_write hname h
  have hagree := hfootprint.agreesBut
  rw [writable_joinPath t d hname', writable_joinPath t' d hname', hhere,
    hagree.directory_eq_ok_iff.2 hhere]
  show t'.next here name' >>= t'.writableAt = t.next here name' >>= t.writableAt
  rw [hagree.next_eq here name', funext (writableAt_of_write h)]

/-! ## Directories that are made -/

/-- **A directory is made** where the path leads, and where nothing was. -/
theorem makeDirectory_eq_ok {route : Route} (h : t.makeDirectory route = .ok t') :
    ∃ l, t.locate route = .ok l ∧ t.lookup l = none ∧ t' = t.put l .directory := by
  rw [makeDirectory, bind_eq_ok_iff] at h
  obtain ⟨l, hlocate, h⟩ := h
  split at h
  next => cases h
  next hfree =>
    split at h
    next => exact ⟨l, hlocate, Option.not_isSome_iff_eq_none.1 hfree, (Except.ok.inj h).symm⟩
    next => cases h

theorem footprint_putDirectory (hadmits : t.admits l .directory) (hnone : t.lookup l = none) :
    Footprint (· = l) (fun _ => False) t (t.put l .directory) := by
  refine ⟨workingDirectory_put t l _, ?_⟩
  intro there
  by_cases hl : l = there
  · subst hl
    exact Or.inr (Or.inl ⟨rfl, hnone, lookup_put_self hadmits⟩)
  · exact Or.inl (lookup_put_of_ne hl)

/-- **What was made is there**: the path leads to it. -/
theorem walk_putDirectory {route : Route} (hlocate : t.locate route = .ok l)
    (hnone : t.lookup l = none) (hadmits : t.admits l .directory) :
    (t.put l .directory).walk ((t.put l .directory).start route) route.steps = .ok l := by
  have hkeeps := (footprint_putDirectory hadmits hnone).keeps
  refine walk_of_locate (hkeeps.locate_eq_ok hlocate) ?_
  rw [directoryAt_eq_some_iff.2 (lookup_put_self hadmits)]
  rfl

/-- Without its steps to the directory itself, a walk leads to the same place. -/
theorem walk_filter {steps : List String} (h : t.walk here steps = .ok l) :
    t.walk here (steps.filter (· ≠ ".")) = .ok l := by
  induction steps generalizing here with
  | nil => exact h
  | cons step steps ih =>
    obtain ⟨there, henter, hwalk⟩ := walk_cons_eq_ok_iff.1 h
    by_cases hdot : step = "."
    · obtain ⟨-, hthere⟩ := next_eq_ok_iff.1 (enter_eq_ok_iff.1 henter).1
      rw [if_pos hdot] at hthere
      rw [List.filter_cons_of_neg (by simp [hdot]), ← hthere]
      exact ih hwalk
    · rw [List.filter_cons_of_pos (by simp [hdot])]
      exact walk_cons_eq_ok_iff.2 ⟨there, henter, ih hwalk⟩

/-- Without a step up, a walk leads down. -/
theorem prefix_of_walk {steps : List String} (hdown : ".." ∉ steps)
    (h : t.walk here steps = .ok l) : here <+: l := by
  induction steps generalizing here with
  | nil =>
    obtain rfl := Except.ok.inj h
    exact List.prefix_rfl
  | cons step steps ih =>
    rw [List.mem_cons, not_or] at hdown
    obtain ⟨there, henter, hwalk⟩ := walk_cons_eq_ok_iff.1 h
    obtain ⟨-, hthere⟩ := next_eq_ok_iff.1 (enter_eq_ok_iff.1 henter).1
    rw [if_neg (Ne.symm hdown.1)] at hthere
    refine List.IsPrefix.trans ?_ (ih hdown.2 hwalk)
    rw [hthere]
    split
    · exact List.prefix_rfl
    · exact List.prefix_append here [step]

/-- The steps of a path, or the first few of them, lead to the location.  Steps to the directory itself
do not count. -/
def IsOnTheWay (t : FileTree) (route : Route) (l : Location) : Prop :=
  ∃ front, front <+: route.steps.filter (· ≠ ".") ∧ t.walk (t.start route) front = .ok l

theorem IsOnTheWay.of_keeps {route : Route} (hl : t.IsOnTheWay route l)
    (h : KeepsDirectories t t') : t'.IsOnTheWay route l := by
  obtain ⟨front, hfront, hwalk⟩ := hl
  refine ⟨front, hfront, ?_⟩
  rw [h.start_eq route]
  exact h.walk_eq_ok hwalk

/-- What is on the way to the directory above is on the way. -/
theorem IsOnTheWay.of_above {route : Route} (h : t.IsOnTheWay route.above l) :
    t.IsOnTheWay route l := by
  obtain ⟨front, hfront, hwalk⟩ := h
  have hsteps : route.above.steps.filter (· ≠ ".") <+: route.steps.filter (· ≠ ".") := by
    have hdrop := List.dropLast_prefix (route.steps.filter (· ≠ "."))
    simpa only [Route.above, List.filter_filter, Bool.and_self] using hdrop.filter (· ≠ ".")
  exact ⟨front, hfront.trans hsteps, hwalk⟩

theorem footprint_makeDirectory {route : Route} (h : t.makeDirectory route = .ok t') :
    Footprint (t'.IsOnTheWay route) (fun _ => False) t t' := by
  obtain ⟨l, hlocate, hnone, rfl⟩ := makeDirectory_eq_ok h
  by_cases hadmits : t.admits l .directory
  · refine (footprint_putDirectory hadmits hnone).mono ?_ fun _ => id
    rintro there rfl
    exact ⟨_, List.prefix_rfl, walk_filter (walk_putDirectory hlocate hnone hadmits)⟩
  · rw [put_of_not_admits hadmits]
    exact Footprint.refl _ _ _

theorem footprint_ensureDirectory (t : FileTree) (route : Route) :
    Footprint ((t.ensureDirectory route).1.IsOnTheWay route) (fun _ => False) t
      (t.ensureDirectory route).1 := by
  rw [ensureDirectory]
  split
  next t' hmade => exact footprint_makeDirectory hmade
  next => exact Footprint.refl _ _ _

/-- **Which directories are made**: those on the way that were missing. -/
theorem footprint_createDirectories (t : FileTree) (route : Route) :
    Footprint ((t.createDirectories route).1.IsOnTheWay route) (fun _ => False) t
      (t.createDirectories route).1 := by
  fun_induction createDirectories t route with
  | case1 => exact Footprint.refl _ _ _
  | case2 route hne hmissing shorter t' e habove ih =>
    rw [habove] at ih
    exact ih.mono (fun l hl => hl.of_above) fun _ => id
  | case3 route hne hmissing shorter t' habove ih =>
    rw [habove] at ih
    have hlast := t'.footprint_ensureDirectory route
    refine Footprint.trans (ih.mono ?_ fun _ => id) hlast
    intro l hl
    exact hl.of_above.of_keeps hlast.keeps
  | case4 route hne hpresent => exact t.footprint_ensureDirectory route

/-- Where a path leads to nothing, there is room for a directory. -/
theorem admits_directory {path : String} {slash : Bool} (h : t.resolve path = .ok (l, slash))
    (hnone : t.lookup l = none) : t.admits l .directory := by
  have hfree : t.directoryAt l = none := by
    rw [directoryAt, hnone]
  obtain ⟨here, name, rfl, hname, hhere⟩ := exists_of_resolve h hfree
  exact admits_concat.2 ⟨hname, hhere, fun _ => rfl⟩

theorem exists_walk_ensureDirectory {path : String} {route : Route}
    (hroute : Route.ofPath path = .ok route) (h : (t.ensureDirectory route).2 = .ok ()) :
    ∃ l, (t.ensureDirectory route).1.walk ((t.ensureDirectory route).1.start route) route.steps =
      .ok l := by
  rw [ensureDirectory] at h ⊢
  cases hmade : t.makeDirectory route with
  | ok t' =>
    obtain ⟨l, hlocate, hnone, rfl⟩ := makeDirectory_eq_ok hmade
    have hadmits := admits_directory (resolve_eq_ok_iff.2 ⟨route, hroute, hlocate, rfl⟩) hnone
    exact ⟨l, walk_putDirectory hlocate hnone hadmits⟩
  | error e =>
    rw [hmade] at h
    dsimp only at h
    rw [isDirectory] at h
    cases hlocate : t.locate route with
    | error e' =>
      rw [hlocate] at h
      cases h
    | ok l =>
      rw [hlocate] at h
      refine ⟨l, walk_of_locate hlocate ?_⟩
      by_contra hnone
      rw [if_neg hnone] at h
      cases h

theorem exists_walk_createDirectories {path : String} {route : Route}
    (hroute : Route.ofPath path = .ok route) (h : (t.createDirectories route).2 = .ok ()) :
    ∃ l, (t.createDirectories route).1.walk ((t.createDirectories route).1.start route)
      route.steps = .ok l := by
  -- No induction: with or without something missing above, the last directory is made at the end.
  revert h
  fun_cases createDirectories t route with
  | case1 hnil =>
    rw [hnil]
    exact fun _ => ⟨_, rfl⟩
  | case2 => exact fun h => by cases h
  | case3 => exact exists_walk_ensureDirectory hroute
  | case4 => exact exists_walk_ensureDirectory hroute

end FileTree

/-- **A directory that was created** is there. -/
theorem World.exists_directory_createDirectories {w : World} {path : String}
    (h : (w.createDirectories path).1 = .ok ()) :
    ∃ here, (w.createDirectories path).2.files.directory path = .ok here := by
  rw [World.createDirectories] at h ⊢
  rw [FileTree.directory]
  split at h
  next hempty => exact ⟨_, if_pos hempty⟩
  next hne =>
    rw [if_neg hne]
    cases hroute : Route.ofPath path with
    | error e =>
      rw [hroute] at h
      cases h
    | ok route =>
      rw [hroute] at h
      rw [if_neg hne]
      exact FileTree.exists_walk_createDirectories hroute h

end QueryPipeline
