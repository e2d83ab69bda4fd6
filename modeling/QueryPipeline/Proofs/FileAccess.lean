/-
# Files by name and directory

A file that is named in a directory is read and written at one location: that of the directory,
and the name behind it.

* `Route.ofPath_joinPath` : the way to a name in a directory;
* `FileTree.isName_of_lookup` : what stands in a tree has a name, and stands in a directory;
* `FileTree.locate_cases` : what a path names;
* `FileTree.directory`, `FileTree.resolve_joinPath` : the location of a name in a directory;
* `FileTree.read_joinPath`, `FileTree.writable_joinPath` : reading and writing by location;
* `FileTree.writable_eq_ok_iff`, `FileTree.admits_of_writable` : what can be written;
* `FileTree.mem_names_iff`, `FileTree.nodup_names` : what stands in a directory.
-/
import Mathlib.Data.List.Basic
import Mathlib.Data.List.Induction
import QueryPipeline.Host

namespace QueryPipeline

/-! ## Names -/

/-- Three characters are enough for a name. -/
theorem isName_of_length {name : String} (hchars : name.toList.all isNameChar)
    (hlength : 2 < name.toList.length) : IsName name := by
  refine ⟨hchars, ?_, ?_, ?_⟩
  · rintro rfl
    exact absurd hlength (by decide)
  · rintro rfl
    exact absurd hlength (by decide)
  · rintro rfl
    exact absurd hlength (by decide)

namespace IsName

variable {name : String} (h : IsName name)

include h

theorem slash : '/' ∉ name.toList :=
  fun hmem => absurd (List.all_eq_true.1 h.chars _ hmem) (by decide)

theorem null : '\x00' ∉ name.toList :=
  fun hmem => absurd (List.all_eq_true.1 h.chars _ hmem) (by decide)

theorem toList_ne_nil : name.toList ≠ [] :=
  fun hnil => h.ne_empty (String.toList_eq_nil_iff.1 hnil)

theorem head_ne : name.toList.head? ≠ some '/' :=
  fun hhead => h.slash (List.mem_of_mem_head? hhead)

theorem last_ne (front : List Char) : (front ++ name.toList).getLast? ≠ some '/' := by
  rw [List.getLast?_append, List.getLast?_eq_some_getLast h.toList_ne_nil, Option.some_or]
  intro hlast
  exact h.slash (Option.some.inj hlast ▸ List.getLast_mem h.toList_ne_nil)

end IsName

/-! ## Paths -/

namespace Route

/-- The characters of a part are those of the whole, without the separator. -/
theorem mem_of_mem_splitOn {separator c : Char} {cs part : List Char}
    (hpart : part ∈ cs.splitOn separator) (hc : c ∈ part) : c ∈ cs ∧ c ≠ separator := by
  induction cs generalizing part with
  | nil =>
    obtain rfl := List.mem_singleton.1 hpart
    cases hc
  | cons d ds ih =>
    rw [List.splitOn_cons_eq_if_modifyHead] at hpart
    split at hpart
    next hd =>
      rcases List.mem_cons.1 hpart with rfl | hpart
      · cases hc
      · exact ⟨List.mem_cons_of_mem d (ih hpart hc).1, (ih hpart hc).2⟩
    next hd =>
      cases hparts : ds.splitOn separator with
      | nil => exact absurd hparts (List.splitOn_ne_nil separator ds)
      | cons first parts =>
        rw [hparts] at ih hpart
        rcases List.mem_cons.1 hpart with rfl | hpart
        · rcases List.mem_cons.1 hc with rfl | hc
          · exact ⟨List.mem_cons_self, by simpa using hd⟩
          · exact ⟨List.mem_cons_of_mem d (ih List.mem_cons_self hc).1, (ih List.mem_cons_self hc).2⟩
        · have hmem := ih (List.mem_cons_of_mem first hpart) hc
          exact ⟨List.mem_cons_of_mem d hmem.1, hmem.2⟩

theorem ofPath_eq {path : String} (hne : path ≠ "") (hnull : '\x00' ∉ path.toList) :
    ofPath path = .ok ⟨path.toList.head? = some '/',
      ((path.toList.splitOn '/').filter (· ≠ [])).map String.ofList,
      path.toList.getLast? = some '/'⟩ := by
  rw [ofPath, if_neg hne, if_neg (by simpa using hnull)]

theorem ofPath_null {path : String} (hne : path ≠ "") (hnull : '\x00' ∈ path.toList) :
    ofPath path = .error .nullInPath := by
  rw [ofPath, if_neg hne, if_pos (by simpa using hnull)]

/-- **The steps of a path** are names, but for those that lead nowhere or up. -/
theorem isName_of_mem_steps {path : String} {route : Route} (h : ofPath path = .ok route)
    {step : String} (hstep : step ∈ route.steps) (hdot : step ≠ ".") (hdots : step ≠ "..") :
    IsName step := by
  by_cases hne : path = ""
  · subst hne
    cases h
  by_cases hnull : '\x00' ∈ path.toList
  · rw [ofPath_null hne hnull] at h
    cases h
  rw [ofPath_eq hne hnull] at h
  cases h
  obtain ⟨part, hpart, rfl⟩ := List.mem_map.1 hstep
  obtain ⟨hpart, hempty⟩ := List.mem_filter.1 hpart
  refine ⟨?_, ?_, hdot, hdots⟩
  · rw [String.toList_ofList, List.all_eq_true]
    intro c hc
    obtain ⟨hmem, hslash⟩ := mem_of_mem_splitOn hpart hc
    have hchar : c ≠ '\x00' := fun heq => hnull (heq ▸ hmem)
    simp [isNameChar, hslash, hchar]
  · intro heq
    rw [← String.toList_eq_nil_iff, String.toList_ofList] at heq
    simp [heq] at hempty

/-- The parts of a path that ends in a name: those before the slash, and the name. -/
theorem filter_splitOn_name (front : List Char) {name : String} (hname : IsName name) :
    ((front ++ '/' :: name.toList).splitOn '/').filter (· ≠ []) =
      (front.splitOn '/').filter (· ≠ []) ++ [name.toList] := by
  rw [List.splitOn_append_cons_self, List.splitOn_eq_singleton hname.slash, List.filter_append]
  simp [hname.toList_ne_nil]

/-- Up to the slash before the name, a path has the parts of the directory. -/
theorem exists_front_of_joinPath {d : String} (hd : d ≠ "") (name : String) :
    ∃ front, (joinPath d name).toList = front ++ '/' :: name.toList ∧
      (front.splitOn '/').filter (· ≠ []) = (d.toList.splitOn '/').filter (· ≠ []) ∧
      (∀ c ≠ '/', c ∈ front ↔ c ∈ d.toList) ∧
      (front ++ ['/']).head? = d.toList.head? := by
  have hnil : d.toList ≠ [] := fun h => hd (String.toList_eq_nil_iff.1 h)
  rw [joinPath, if_neg hd]
  by_cases hslash : d.toList.getLast? = some '/'
  · obtain ⟨front, hfront⟩ := List.getLast?_eq_some_iff.1 hslash
    refine ⟨front, ?_, ?_, ?_, by rw [hfront]⟩
    · rw [if_pos hslash, String.toList_append, hfront, List.append_assoc]
      rfl
    · rw [hfront, List.splitOn_append_cons_self, List.splitOn_nil, List.filter_append]
      simp
    · intro c hc
      simp [hfront, hc]
  · refine ⟨d.toList, ?_, rfl, fun _ _ => Iff.rfl, ?_⟩
    · rw [if_neg hslash, String.toList_append, String.toList_append, List.append_assoc]
      rfl
    · rw [List.head?_append, List.head?_eq_some_head hnil, Option.some_or]

/-- **The way to a name in a directory** is the way to the directory, and the name. -/
theorem ofPath_joinPath (d : String) {name : String} (hname : IsName name) :
    ofPath (joinPath d name) =
      if d = "" then .ok ⟨false, [name], false⟩
      else (ofPath d).map fun route => ⟨route.absolute, route.steps ++ [name], false⟩ := by
  by_cases hd : d = ""
  · have hlast := hname.last_ne []
    rw [List.nil_append] at hlast
    rw [if_pos hd, joinPath, if_pos hd, ofPath_eq hname.ne_empty hname.null,
      List.splitOn_eq_singleton hname.slash, decide_eq_false hname.head_ne, decide_eq_false hlast]
    simp [hname.toList_ne_nil]
  · rw [if_neg hd]
    obtain ⟨front, hpath, hparts, hchars, hhead⟩ := exists_front_of_joinPath hd name
    have hne : joinPath d name ≠ "" := by
      rw [ne_eq, ← String.toList_eq_nil_iff, hpath]
      simp
    have hnull : '\x00' ∈ (joinPath d name).toList ↔ '\x00' ∈ d.toList := by
      rw [hpath, List.mem_append, hchars _ (by decide), List.mem_cons]
      simp [hname.null]
    by_cases hd' : '\x00' ∈ d.toList
    · rw [ofPath_null hne (hnull.2 hd'), ofPath_null hd hd']
      rfl
    · have hlast := hname.last_ne (front ++ ['/'])
      have hstart : (joinPath d name).toList.head? = d.toList.head? := by
        rw [← hhead, hpath]
        cases front <;> rfl
      rw [List.append_assoc, List.singleton_append, ← hpath] at hlast
      rw [ofPath_eq hne (mt hnull.1 hd'), ofPath_eq hd hd', hstart, decide_eq_false hlast, hpath,
        filter_splitOn_name front hname, hparts]
      simp [Except.map]

end Route

/-- A text that is written to a file is read back. -/
theorem decodeText_toUTF8 (s : String) : decodeText s.toUTF8 = .ok s := by
  have hdecode : String.fromUTF8? s.toUTF8 = some s := dif_pos s.isValidUTF8
  rw [decodeText, hdecode]

/-- A computation succeeds if both of its parts do. -/
theorem bind_eq_ok_iff {ε α β : Type} {x : Except ε α} {f : α → Except ε β} {b : β} :
    x >>= f = .ok b ↔ ∃ a, x = .ok a ∧ f a = .ok b := by
  cases x with
  | error e =>
    constructor
    · intro h
      cases h
    · rintro ⟨a, ha, -⟩
      cases ha
  | ok a =>
    constructor
    · intro h
      exact ⟨a, rfl, h⟩
    · rintro ⟨a', ha, h⟩
      obtain rfl := Except.ok.inj ha
      exact h

namespace FileTree

variable {t t' t'' : FileTree} {here there l : Location} {name : String} {e : Entry}

/-! ## Entries -/

theorem directoryAt_eq_some_iff {access : Access} :
    t.directoryAt l = some access ↔ t.lookup l = some (.directory access) := by
  rw [directoryAt]
  cases t.lookup l with
  | none => simp
  | some e => cases e <;> simp

theorem bytesAt_eq_some_iff {bytes : ByteArray} :
    t.bytesAt l = some bytes ↔ ∃ access, t.lookup l = some (.file bytes access) := by
  rw [bytesAt]
  cases t.lookup l with
  | none => simp
  | some e => cases e <;> simp

theorem isSome_lookup (h : (t.directoryAt l).isSome) : (t.lookup l).isSome := by
  obtain ⟨access, haccess⟩ := Option.isSome_iff_exists.1 h
  rw [directoryAt_eq_some_iff.1 haccess]
  rfl

/-- **Whatever stands in a tree** has a name, and stands in a directory. -/
theorem isName_of_lookup (h : (t.lookup (here ++ [name])).isSome) :
    IsName name ∧ (t.directoryAt here).isSome := by
  rw [isSome_directoryAt]
  exact t.isDirectory_parent (Std.ExtTreeMap.mem_iff_isSome_getElem?.2 h)

theorem isSome_directoryAt_dropLast (h : (t.directoryAt l).isSome) :
    (t.directoryAt l.dropLast).isSome := by
  rcases List.eq_nil_or_concat' l with rfl | ⟨here, name, rfl⟩
  · exact h
  · rw [List.dropLast_concat]
    exact (isName_of_lookup (isSome_lookup h)).2

/-- The root is a directory, like all that is above the working directory. -/
theorem isSome_directoryAt_root (t : FileTree) : (t.directoryAt []).isSome := by
  have habove : ∀ l, (t.directoryAt l).isSome → (t.directoryAt []).isSome := by
    intro l
    induction l using List.reverseRecOn with
    | nil => exact id
    | append_singleton here name ih =>
      intro h
      exact ih (isName_of_lookup (isSome_lookup h)).2
  refine habove t.workingDirectory ?_
  rw [isSome_directoryAt]
  exact t.isDirectory_workingDirectory

theorem isSome_directoryAt_start (t : FileTree) (route : Route) :
    (t.directoryAt (t.start route)).isSome := by
  rw [start]
  split
  · exact t.isSome_directoryAt_root
  · rw [isSome_directoryAt]
    exact t.isDirectory_workingDirectory

theorem workingDirectory_put (t : FileTree) (l : Location) (e : Entry) :
    (t.put l e).workingDirectory = t.workingDirectory := by
  rw [put]
  split <;> rfl

theorem lookup_put_self (h : t.admits l e) : (t.put l e).lookup l = some e := by
  rw [put, dif_pos h]
  exact Std.ExtTreeMap.getElem?_insert_self

theorem put_of_not_admits (h : ¬ t.admits l e) : t.put l e = t := by
  rw [put, dif_neg h]

theorem lookup_put_of_ne (hne : l ≠ there) : (t.put l e).lookup there = t.lookup there := by
  rw [put]
  split
  next =>
    show (t.entries.insert l e)[there]? = t.entries[there]?
    rw [Std.ExtTreeMap.getElem?_insert]
    exact if_neg (by simpa using hne)
  next => rfl

/-! ## Ways through a tree -/

theorem next_eq_ok_iff {step : String} :
    t.next here step = .ok there ↔ (t.directoryAt here).any Access.search ∧
      there = if step = "." then here else if step = ".." then here.dropLast else here ++ [step] := by
  rw [next]
  split
  next h => simp [h, eq_comm]
  next h => simp [h]

theorem next_of_isName (hname : IsName name) (h : (t.directoryAt here).any Access.search) :
    t.next here name = .ok (here ++ [name]) := by
  rw [next, if_pos h, if_neg hname.ne_dot, if_neg hname.ne_dots]

theorem enter_eq_ok_iff {step : String} :
    t.enter here step = .ok there ↔
      t.next here step = .ok there ∧ (t.directoryAt there).isSome := by
  rw [enter, bind_eq_ok_iff]
  constructor
  · rintro ⟨l, hnext, h⟩
    split at h
    next => cases h
    next => cases h
    next access hlookup =>
      obtain rfl := Except.ok.inj h
      rw [directoryAt_eq_some_iff.2 hlookup]
      exact ⟨hnext, rfl⟩
  · rintro ⟨hnext, h⟩
    obtain ⟨access, haccess⟩ := Option.isSome_iff_exists.1 h
    refine ⟨there, hnext, ?_⟩
    rw [directoryAt_eq_some_iff.1 haccess]
    rfl

theorem walk_append (t : FileTree) (here : Location) (front behind : List String) :
    t.walk here (front ++ behind) =
      t.walk here front >>= fun there => t.walk there behind :=
  List.foldlM_append

theorem walk_cons_eq_ok_iff {step : String} {steps : List String} :
    t.walk here (step :: steps) = .ok l ↔
      ∃ there, t.enter here step = .ok there ∧ t.walk there steps = .ok l := by
  rw [walk, List.foldlM_cons, bind_eq_ok_iff]
  rfl

/-- A walk from a directory leads to one. -/
theorem isSome_directoryAt_of_walk {steps : List String} (hhere : (t.directoryAt here).isSome)
    (h : t.walk here steps = .ok l) : (t.directoryAt l).isSome := by
  induction steps generalizing here with
  | nil =>
    obtain rfl := Except.ok.inj h
    exact hhere
  | cons step steps ih =>
    obtain ⟨there, henter, hwalk⟩ := walk_cons_eq_ok_iff.1 h
    exact ih (enter_eq_ok_iff.1 henter).2 hwalk

theorem locate_nil {route : Route} (h : route.steps = []) :
    t.locate route = .ok (t.start route) := by
  rw [locate, h]
  rfl

theorem locate_concat {route : Route} {front : List String} {last : String}
    (h : route.steps = front ++ [last]) :
    t.locate route = t.walk (t.start route) front >>= fun here => t.next here last := by
  rw [locate, h, List.getLast?_concat, List.dropLast_concat]

/-- **A path names a directory**, or a name in one. -/
theorem locate_cases {route : Route} (h : t.locate route = .ok l) :
    (t.directoryAt l).isSome ∨
      ∃ front name here, route.steps = front ++ [name] ∧ name ≠ "." ∧ name ≠ ".." ∧
        t.walk (t.start route) front = .ok here ∧ (t.directoryAt here).isSome ∧
        t.next here name = .ok l ∧ l = here ++ [name] := by
  rcases List.eq_nil_or_concat' route.steps with hnil | ⟨front, last, hsteps⟩
  · rw [locate_nil hnil] at h
    obtain rfl := Except.ok.inj h
    exact Or.inl (t.isSome_directoryAt_start route)
  · rw [locate_concat hsteps, bind_eq_ok_iff] at h
    obtain ⟨here, hwalk, hnext⟩ := h
    have hhere := isSome_directoryAt_of_walk (t.isSome_directoryAt_start route) hwalk
    obtain ⟨-, hl⟩ := next_eq_ok_iff.1 hnext
    by_cases hdot : last = "."
    · rw [if_pos hdot] at hl
      exact Or.inl (hl ▸ hhere)
    · rw [if_neg hdot] at hl
      by_cases hdots : last = ".."
      · rw [if_pos hdots] at hl
        exact Or.inl (hl ▸ isSome_directoryAt_dropLast hhere)
      · rw [if_neg hdots] at hl
        exact Or.inr ⟨front, last, here, hsteps, hdot, hdots, hwalk, hhere, hnext, hl⟩

/-- A path that names a directory leads there. -/
theorem walk_of_locate {route : Route} (h : t.locate route = .ok l)
    (hl : (t.directoryAt l).isSome) : t.walk (t.start route) route.steps = .ok l := by
  rcases List.eq_nil_or_concat' route.steps with hnil | ⟨front, last, hsteps⟩
  · rw [locate_nil hnil] at h
    rw [hnil]
    exact h
  · rw [locate_concat hsteps, bind_eq_ok_iff] at h
    obtain ⟨here, hwalk, hnext⟩ := h
    rw [hsteps, walk_append, hwalk]
    exact walk_cons_eq_ok_iff.2 ⟨l, enter_eq_ok_iff.2 ⟨hnext, hl⟩, rfl⟩

/-- The location of a directory.  The empty path stands for the working directory. -/
def directory (t : FileTree) (path : String) : Except FileError Location :=
  if path = "" then .ok t.workingDirectory
  else do
    let route ← Route.ofPath path
    t.walk (t.start route) route.steps

/-- **A name in a directory** is found behind the location of the directory. -/
theorem resolve_joinPath (t : FileTree) (d : String) (hname : IsName name) :
    t.resolve (joinPath d name) =
      t.directory d >>= fun here => t.next here name >>= fun there => .ok (there, false) := by
  rw [resolve, Route.ofPath_joinPath d hname, directory]
  split
  next => rfl
  next =>
    cases Route.ofPath d with
    | error e => rfl
    | ok route =>
      show t.locate ⟨route.absolute, route.steps ++ [name], false⟩ >>= _ = _
      rw [locate_concat rfl, bind_assoc]
      rfl

theorem resolve_eq_ok_iff {path : String} {slash : Bool} :
    t.resolve path = .ok (l, slash) ↔
      ∃ route, Route.ofPath path = .ok route ∧ t.locate route = .ok l ∧ route.slash = slash := by
  rw [resolve, bind_eq_ok_iff]
  refine exists_congr fun route => and_congr_right fun _ => ?_
  rw [bind_eq_ok_iff]
  constructor
  · rintro ⟨there, hlocate, h⟩
    obtain ⟨rfl, rfl⟩ := Prod.mk.inj (Except.ok.inj h)
    exact ⟨hlocate, rfl⟩
  · rintro ⟨hlocate, rfl⟩
    exact ⟨l, hlocate, rfl⟩

theorem exists_of_resolve_joinPath {d : String} (hname : IsName name) {slash : Bool}
    (h : t.resolve (joinPath d name) = .ok (l, slash)) :
    ∃ here, t.directory d = .ok here ∧ l = here ++ [name] := by
  rw [resolve_joinPath t d hname, bind_eq_ok_iff] at h
  obtain ⟨here, hhere, h⟩ := h
  obtain ⟨there, hnext, h⟩ := bind_eq_ok_iff.1 h
  rw [next_of_isName hname (next_eq_ok_iff.1 hnext).1] at hnext
  obtain rfl := Except.ok.inj hnext
  obtain ⟨rfl, -⟩ := Prod.mk.inj (Except.ok.inj h)
  exact ⟨here, hhere, rfl⟩

/-- A location that a path names, and that is no directory, is a name in one. -/
theorem exists_of_resolve {path : String} {slash : Bool} (h : t.resolve path = .ok (l, slash))
    (hl : t.directoryAt l = none) :
    ∃ here name, l = here ++ [name] ∧ IsName name ∧ (t.directoryAt here).isSome := by
  obtain ⟨route, hroute, hlocate, -⟩ := resolve_eq_ok_iff.1 h
  rcases locate_cases hlocate with
    hdirectory | ⟨front, name, here, hsteps, hdot, hdots, -, hhere, -, rfl⟩
  · rw [hl] at hdirectory
    cases hdirectory
  · have hmem : name ∈ route.steps := by
      rw [hsteps]
      exact List.mem_append_right _ List.mem_cons_self
    exact ⟨here, name, rfl, Route.isName_of_mem_steps hroute hmem hdot hdots, hhere⟩

/-! ## Reading -/

/-- **A file is read at the location of its directory.** -/
theorem read_joinPath (t : FileTree) (d : String) (hname : IsName name) :
    t.read (joinPath d name) =
      t.directory d >>= fun here => t.next here name >>= t.contentAt := by
  rw [read, resolve_joinPath t d hname]
  simp only [bind_assoc]
  rfl

theorem read_joinPath_eq_ok_iff {d : String} (hname : IsName name) {bytes : ByteArray} :
    t.read (joinPath d name) = .ok bytes ↔
      ∃ here, t.directory d = .ok here ∧ (t.directoryAt here).any Access.search ∧
        t.contentAt (here ++ [name]) = .ok bytes := by
  rw [read_joinPath t d hname, bind_eq_ok_iff]
  refine exists_congr fun here => and_congr_right fun _ => ?_
  rw [bind_eq_ok_iff]
  constructor
  · rintro ⟨there, hnext, h⟩
    have hsearch := (next_eq_ok_iff.1 hnext).1
    rw [next_of_isName hname hsearch] at hnext
    obtain rfl := Except.ok.inj hnext
    exact ⟨hsearch, h⟩
  · rintro ⟨hsearch, h⟩
    exact ⟨_, next_of_isName hname hsearch, h⟩

/-- The bytes of the file that a path names, whether or not they may be read. -/
def stored (t : FileTree) (path : String) : Option ByteArray :=
  match t.resolve path with
  | .ok (there, false) => t.bytesAt there
  | _ => none

theorem stored_eq_some_iff {path : String} {bytes : ByteArray} :
    t.stored path = some bytes ↔
      ∃ l, t.resolve path = .ok (l, false) ∧ t.bytesAt l = some bytes := by
  rw [stored]
  cases t.resolve path with
  | error e => simp
  | ok found =>
    obtain ⟨there, slash⟩ := found
    cases slash <;> simp

/-- **What a file holds** is read there, if it may be read. -/
theorem text_of_lookup {path text : String} {access : Access}
    (hl : t.resolve path = .ok (l, false)) (h : t.lookup l = some (.file text.toUTF8 access))
    (hread : access.read) : t.text path = .ok text := by
  have hbytes : t.read path = .ok text.toUTF8 := by
    rw [read, hl]
    show t.contentAt l = _
    rw [contentAt, h]
    exact if_pos hread
  rw [FileTree.text, hbytes]
  exact decodeText_toUTF8 text

/-! ## Writing -/

theorem writableAt_eq_ok_iff :
    t.writableAt l = .ok there ↔ there = l ∧ t.directoryAt l = none ∧ t.mayWrite l := by
  rw [writableAt]
  cases t.directoryAt l with
  | some access => simp
  | none => cases t.mayWrite l <;> simp [eq_comm]

/-- **What a path can write**: a location that it names, where no directory stands and where something
may be written. -/
theorem writable_eq_ok_iff {path : String} :
    t.writable path = .ok l ↔
      t.resolve path = .ok (l, false) ∧ t.directoryAt l = none ∧ t.mayWrite l := by
  rw [writable, bind_eq_ok_iff]
  constructor
  · rintro ⟨⟨there, slash⟩, hresolve, h⟩
    cases slash with
    | true => cases h
    | false =>
      obtain ⟨rfl, h⟩ := writableAt_eq_ok_iff.1 h
      exact ⟨hresolve, h⟩
  · rintro ⟨hresolve, h⟩
    exact ⟨(l, false), hresolve, writableAt_eq_ok_iff.2 ⟨rfl, h⟩⟩

theorem writable_joinPath (t : FileTree) (d : String) (hname : IsName name) :
    t.writable (joinPath d name) =
      t.directory d >>= fun here => t.next here name >>= t.writableAt := by
  rw [writable, resolve_joinPath t d hname]
  simp only [bind_assoc]
  rfl

theorem write_eq_ok_iff {path text : String} :
    t.write path text = .ok t' ↔ ∃ l, t.writable path = .ok l ∧
      t' = t.put l (.file text.toUTF8 (t.accessAt l)) := by
  rw [write, bind_eq_ok_iff]
  refine exists_congr fun l => and_congr_right fun _ => ?_
  show Except.ok _ = Except.ok _ ↔ _
  rw [Except.ok.injEq, eq_comm]

/-- A file can be put where it can be written. -/
theorem admits_of_writable {path : String} (h : t.writable path = .ok l) (bytes : ByteArray)
    (access : Access) : t.admits l (.file bytes access) := by
  obtain ⟨hresolve, hfree, -⟩ := writable_eq_ok_iff.1 h
  obtain ⟨here, name, rfl, hname, hhere⟩ := exists_of_resolve hresolve hfree
  refine admits_concat.2 ⟨hname, hhere, ?_⟩
  rw [hfree]
  intro hnone
  cases hnone

/-! ## What stands in a directory -/

/-- A search for names goes the way of a walk. -/
theorem walk_of_seek {steps : List String} (h : steps.foldlM t.seek here = .ok l) :
    t.walk here steps = .ok l := by
  induction steps generalizing here with
  | nil => exact h
  | cons step steps ih =>
    rw [List.foldlM_cons, bind_eq_ok_iff] at h
    obtain ⟨there, hseek, hsteps⟩ := h
    rw [seek] at hseek
    split at hseek
    next => cases hseek
    next => exact walk_cons_eq_ok_iff.2 ⟨there, hseek, ih hsteps⟩

/-- A directory whose names may be read is there. -/
theorem directory_of_find {d : String} (h : t.find d = .ok here) : t.directory d = .ok here := by
  rw [find, bind_eq_ok_iff] at h
  obtain ⟨route, hroute, h⟩ := h
  obtain ⟨there, hsteps, h⟩ := bind_eq_ok_iff.1 h
  have hne : d ≠ "" := by
    rintro rfl
    cases hroute
  rw [directory, if_neg hne, hroute]
  show t.walk (t.start route) route.steps = .ok here
  rw [walk_of_seek hsteps]
  split at h
  next => exact h
  next => cases h

/-- The names of a directory are those that stand behind its location. -/
theorem mem_names_iff {d : String} :
    name ∈ t.names d ↔ ∃ here, t.find d = .ok here ∧ (t.lookup (here ++ [name])).isSome := by
  rw [names]
  cases t.find d with
  | error e => simp
  | ok here =>
    simp only [List.mem_filterMap, Std.ExtTreeMap.mem_keys, Except.ok.injEq, exists_eq_left']
    constructor
    · rintro ⟨l, hl, hlast⟩
      split at hlast
      next hparent =>
        obtain ⟨front, rfl⟩ := List.getLast?_eq_some_iff.1 hlast
        rw [List.dropLast_concat] at hparent
        rw [← hparent]
        exact Std.ExtTreeMap.mem_iff_isSome_getElem?.1 hl
      next => cases hlast
    · intro hmem
      exact ⟨_, Std.ExtTreeMap.mem_iff_isSome_getElem?.2 hmem, by simp⟩

/-- No name stands twice in a directory. -/
theorem nodup_names (t : FileTree) (d : String) : (t.names d).Nodup := by
  rw [names]
  cases t.find d with
  | error e => exact List.nodup_nil
  | ok here =>
    have hkeys : t.entries.keys.Pairwise (· ≠ ·) := Std.ExtTreeMap.nodup_keys
    refine List.Pairwise.filterMap _ ?_ hkeys
    -- Two locations with the same parent and the same name are one.
    intro l l' hne name hname name' hname' heq
    split at hname
    next hparent =>
      split at hname'
      next hparent' =>
        obtain ⟨front, rfl⟩ := List.getLast?_eq_some_iff.1 hname
        obtain ⟨front', rfl⟩ := List.getLast?_eq_some_iff.1 hname'
        rw [List.dropLast_concat] at hparent hparent'
        exact hne (by rw [hparent, hparent', heq])
      next => cases hname'
    next => cases hname

end FileTree

end QueryPipeline
