/-
# Descriptors are read all or nothing

The members of a descriptor are put into a table one after the other, and only then are the keys
checked, in the order of the table.  So the last of several members with one key counts, and a key
that is no path is reported by the order of keys, never by the order of members.

* `Declares` : what the last member with a key says;
* `FieldTable.getElem?_ofEntries_eq_some_iff` : the table says what the last members say;
* `FieldTable.pairwise_toList` : its entries ascend by the bytes of their keys;
* `IsLeastUndotted`, `FieldTable.ofDescriptor_eq_invalidPath_iff` : the key that is reported;
* `IsTableOf`, `FieldTable.isTableOf_ofEntries` : the table of some members;
* `descriptor_read_all_or_nothing` : the whole law.
-/
import Mathlib.Data.Finset.Card
import QueryPipeline.Proofs.ByteOrder
import QueryPipeline.Proofs.DescriptorRoundTrip

namespace QueryPipeline

/-! ## The last of several members -/

/-- The last member with a key gives this type. -/
def Declares (members : List (String × FieldType)) (path : String) (type : FieldType) : Prop :=
  ∃ before after, members = before ++ (path, type) :: after ∧ path ∉ after.map Prod.fst

theorem not_declares_nil (path : String) (type : FieldType) : ¬ Declares [] path type := by
  rintro ⟨before, after, h, -⟩
  exact absurd h.symm (List.append_ne_nil_of_right_ne_nil before (List.cons_ne_nil _ _))

/-- A member counts if no later one has its key. -/
theorem declares_cons_iff (entry : String × FieldType) (members : List (String × FieldType))
    (path : String) (type : FieldType) :
    Declares (entry :: members) path type ↔
      Declares members path type ∨ path ∉ members.map Prod.fst ∧ entry = (path, type) := by
  constructor
  · rintro ⟨before, after, h, hlast⟩
    cases before with
    | nil =>
      obtain ⟨rfl, rfl⟩ := List.cons.inj h
      exact Or.inr ⟨hlast, rfl⟩
    | cons first before =>
      obtain ⟨-, rfl⟩ := List.cons.inj h
      exact Or.inl ⟨before, after, rfl, hlast⟩
  · rintro (⟨before, after, rfl, hlast⟩ | ⟨hlast, rfl⟩)
    · exact ⟨entry :: before, after, rfl, hlast⟩
    · exact ⟨[], members, rfl, hlast⟩

/-- Among members with distinct keys, each one is the last with its key. -/
theorem declares_iff_mem {members : List (String × FieldType)}
    (hdistinct : (members.map Prod.fst).Nodup) {path : String} {type : FieldType} :
    Declares members path type ↔ (path, type) ∈ members := by
  induction members with
  | nil => exact iff_of_false (not_declares_nil path type) List.not_mem_nil
  | cons entry members ih =>
    obtain ⟨hfresh, hdistinct⟩ := List.nodup_cons.1 hdistinct
    rw [declares_cons_iff, ih hdistinct, List.mem_cons, or_comm]
    refine or_congr_left ?_
    constructor
    · rintro ⟨-, rfl⟩
      rfl
    · rintro rfl
      exact ⟨hfresh, rfl⟩

/-! ## Tables of members -/

namespace FieldTable

/-- Members are put into a table one after the other, each in place of the one before it with the
same key. -/
theorem getElem?_foldl_insert_eq_some_iff (members : List (String × FieldType)) (table : FieldTable)
    (path : String) (type : FieldType) :
    (members.foldl (fun table entry => table.insert entry.1 entry.2) table)[path]? = some type ↔
      Declares members path type ∨ path ∉ members.map Prod.fst ∧ table[path]? = some type := by
  induction members generalizing table with
  | nil => simp [not_declares_nil]
  | cons entry members ih =>
    obtain ⟨key, keyType⟩ := entry
    rw [List.foldl_cons, ih, declares_cons_iff, Std.ExtTreeMap.getElem?_insert, List.map_cons,
      List.mem_cons]
    by_cases hkey : key = path
    · rw [if_pos (Std.compare_eq_iff_eq.2 hkey)]
      simp [hkey]
    · rw [if_neg (mt Std.compare_eq_iff_eq.1 hkey)]
      simp [hkey, Ne.symm hkey]

/-- **The table says what the last members say.** -/
theorem getElem?_ofEntries_eq_some_iff (members : List (String × FieldType)) (path : String)
    (type : FieldType) : (ofEntries members)[path]? = some type ↔ Declares members path type := by
  rw [ofEntries, getElem?_foldl_insert_eq_some_iff]
  simp

/-- A table has as many entries as its members have distinct keys. -/
theorem size_ofEntries (members : List (String × FieldType)) :
    (ofEntries members).size = (members.map Prod.fst).toFinset.card := by
  have hkeys : (ofEntries members).keys.toFinset = (members.map Prod.fst).toFinset := by
    ext key
    rw [List.mem_toFinset, List.mem_toFinset, Std.ExtTreeMap.mem_keys, mem_ofEntries_iff]
  rw [← hkeys, List.toFinset_card_of_nodup Std.ExtTreeMap.nodup_keys, Std.ExtTreeMap.length_keys]

/-- The order of members with distinct keys does not matter. -/
theorem ofEntries_perm {members members' : List (String × FieldType)} (h : members'.Perm members)
    (hdistinct : (members.map Prod.fst).Nodup) : ofEntries members' = ofEntries members := by
  have hdistinct' : (members'.map Prod.fst).Nodup := (h.map Prod.fst).nodup_iff.2 hdistinct
  apply Std.ExtTreeMap.ext_getElem?
  intro key
  ext type
  rw [getElem?_ofEntries_eq_some_iff, getElem?_ofEntries_eq_some_iff, declares_iff_mem hdistinct',
    declares_iff_mem hdistinct, h.mem_iff]

/-- **The entries of a table ascend by the bytes of their keys.** -/
theorem pairwise_toList (table : FieldTable) :
    table.toList.Pairwise fun entry later => Text.bytes entry.1 < Text.bytes later.1 := by
  refine Std.ExtTreeMap.ordered_keys_toList.imp ?_
  intro entry later h
  have hlt : entry.1 < later.1 := compareOfLessAndEq_eq_lt.1 h
  exact (Text.lt_iff_bytes_lt _ _).1 hlt

theorem pairwise_keys (table : FieldTable) :
    table.keys.Pairwise fun key later => Text.bytes key < Text.bytes later := by
  rw [← Std.ExtTreeMap.map_fst_toList_eq_keys, List.pairwise_map]
  exact table.pairwise_toList

end FieldTable

/-! ## The key that is reported -/

/-- The least of some keys, by their bytes, that does not start with a dot. -/
structure IsLeastUndotted (keys : List String) (key : String) : Prop where
  mem : key ∈ keys
  undotted : startsWithDot key = false
  least : ∀ other ∈ keys, startsWithDot other = false →
    other = key ∨ Text.bytes key < Text.bytes other

theorem IsLeastUndotted.unique {keys : List String} {key key' : String}
    (h : IsLeastUndotted keys key) (h' : IsLeastUndotted keys key') : key = key' := by
  rcases h.least key' h'.mem h'.undotted with heq | hlt
  · exact heq.symm
  rcases h'.least key h.mem h.undotted with heq | hgt
  · exact heq
  · exact absurd hgt (List.lt_asymm hlt)

/-- Which key is the least depends on what keys there are, not on their order. -/
theorem IsLeastUndotted.congr {keys keys' : List String} (h : ∀ key, key ∈ keys ↔ key ∈ keys')
    {key : String} (hleast : IsLeastUndotted keys key) : IsLeastUndotted keys' key where
  mem := (h key).1 hleast.mem
  undotted := hleast.undotted
  least other hother := hleast.least other ((h other).2 hother)

/-- The first key out of order in an ascending list is the least one. -/
theorem isLeastUndotted_of_find? {keys : List String} {key : String}
    (hsorted : keys.Pairwise fun key later => Text.bytes key < Text.bytes later)
    (h : (keys.find? fun key => !startsWithDot key) = some key) : IsLeastUndotted keys key := by
  obtain ⟨hundotted, before, after, rfl, hbefore⟩ := List.find?_eq_some_iff_append.1 h
  refine ⟨by simp, by simpa using hundotted, ?_⟩
  intro other hother hfound
  rcases List.mem_append.1 hother with hother | hother
  · have hdotted := hbefore other hother
    rw [hfound] at hdotted
    cases hdotted
  rcases List.mem_cons.1 hother with rfl | hother
  · exact Or.inl rfl
  · have hbehind := (List.pairwise_append.1 hsorted).2.1
    exact Or.inr ((List.pairwise_cons.1 hbehind).1 other hother)

namespace FieldTable

variable {text : String} {members : List (String × FieldType)}

/-- If some key is no path, the least such key is reported. -/
theorem exists_invalidPath (hread : Descriptor.readMembers text.toList = .ok members)
    (h : ∃ key ∈ members.map Prod.fst, startsWithDot key = false) :
    ∃ key, IsLeastUndotted (members.map Prod.fst) key ∧
      ofDescriptor text = .error (.invalidPath key) := by
  rw [ofDescriptor, hread]
  dsimp only
  cases hfind : (ofEntries members).keys.find? fun key => !startsWithDot key with
  | none =>
    obtain ⟨key, hkey, hundotted⟩ := h
    have hdotted := (find?_keys_eq_none_iff _).1 hfind key ((mem_ofEntries_iff members key).2 hkey)
    rw [hundotted] at hdotted
    cases hdotted
  | some key =>
    refine ⟨key, ?_, rfl⟩
    refine (isLeastUndotted_of_find? (ofEntries members).pairwise_keys hfind).congr ?_
    intro key
    rw [Std.ExtTreeMap.mem_keys, mem_ofEntries_iff]

/-- If all keys are paths, the table of the members is returned. -/
theorem ofDescriptor_of_dotted (hread : Descriptor.readMembers text.toList = .ok members)
    (h : ∀ key ∈ members.map Prod.fst, startsWithDot key) :
    ofDescriptor text = .ok (ofEntries members) := by
  refine ofDescriptor_eq_ok_iff.2 ⟨members, hread, rfl, ?_⟩
  intro key hkey
  exact h key ((mem_ofEntries_iff members key).1 hkey)

/-- **Which key is reported**, of a text whose members can be read. -/
theorem ofDescriptor_eq_invalidPath_iff (hread : Descriptor.readMembers text.toList = .ok members)
    (key : String) :
    ofDescriptor text = .error (.invalidPath key) ↔
      IsLeastUndotted (members.map Prod.fst) key := by
  constructor
  · intro herror
    by_cases hdotted : ∀ key ∈ members.map Prod.fst, startsWithDot key
    · rw [ofDescriptor_of_dotted hread hdotted] at herror
      cases herror
    · push Not at hdotted
      obtain ⟨other, hother, hundotted⟩ := hdotted
      obtain ⟨found, hleast, hfound⟩ :=
        exists_invalidPath hread ⟨other, hother, by simpa using hundotted⟩
      rw [hfound] at herror
      cases herror
      exact hleast
  · intro hleast
    obtain ⟨found, hfound, herror⟩ := exists_invalidPath hread ⟨key, hleast.mem, hleast.undotted⟩
    rw [herror, hfound.unique hleast]

end FieldTable

/-! ## The table of a descriptor -/

/-- The table that some members make up: what it says of each path, its size, and the order of
its entries wherever it is written. -/
structure IsTableOf (members : List (String × FieldType)) (table : FieldTable) : Prop where
  declared : ∀ path type, table[path]? = some type ↔ Declares members path type
  undeclared : ∀ path, table[path]? = none ↔ path ∉ members.map Prod.fst
  size : table.size = (members.map Prod.fst).toFinset.card
  entries : ∀ path type, (path, type) ∈ table.toList ↔ Declares members path type
  ascending : table.toList.Pairwise fun entry later => Text.bytes entry.1 < Text.bytes later.1
  pretty : table.pretty.toList = Descriptor.Spacing.pretty.object table.toList
  compact : table.compact.toList = Descriptor.Spacing.compact.object table.toList

theorem FieldTable.isTableOf_ofEntries (members : List (String × FieldType)) :
    IsTableOf members (ofEntries members) where
  declared := getElem?_ofEntries_eq_some_iff members
  undeclared path := by
    rw [← mem_ofEntries_iff, Std.ExtTreeMap.mem_iff_isSome_getElem?, Option.not_isSome_iff_eq_none]
  size := size_ofEntries members
  entries path type := by
    rw [Std.ExtTreeMap.mem_toList_iff_getElem?_eq_some, getElem?_ofEntries_eq_some_iff]
  ascending := pairwise_toList _
  pretty := toList_pretty _
  compact := toList_compact _

/-- **Descriptors are read all or nothing.**  If some key does not start with a dot, the least such key
by its bytes is reported.  Otherwise the result is the table of the members.  Another order of the
members changes neither the key that is reported nor, if the keys are distinct, the table.  No text at
all describes a table with a key that does not start with a dot. -/
theorem descriptor_read_all_or_nothing {text : String} {members : List (String × FieldType)}
    (hread : Descriptor.readMembers text.toList = .ok members) :
    ((∃ key ∈ members.map Prod.fst, startsWithDot key = false) →
      ∃ key, IsLeastUndotted (members.map Prod.fst) key ∧
        FieldTable.ofDescriptor text = .error (.invalidPath key)) ∧
    ((∀ key ∈ members.map Prod.fst, startsWithDot key) →
      ∃ table, FieldTable.ofDescriptor text = .ok table ∧ IsTableOf members table) ∧
    (∀ text' members', Descriptor.readMembers text'.toList = .ok members' →
      members'.Perm members →
      (∀ key, FieldTable.ofDescriptor text' = .error (.invalidPath key) ↔
        FieldTable.ofDescriptor text = .error (.invalidPath key)) ∧
      ((members.map Prod.fst).Nodup →
        FieldTable.ofDescriptor text' = FieldTable.ofDescriptor text)) ∧
    ∀ text' table, FieldTable.ofDescriptor text' = .ok table → ∀ key ∈ table, startsWithDot key := by
  refine ⟨FieldTable.exists_invalidPath hread, ?_, ?_, ?_⟩
  · intro hdotted
    exact ⟨_, FieldTable.ofDescriptor_of_dotted hread hdotted,
      FieldTable.isTableOf_ofEntries members⟩
  · intro text' members' hread' hperm
    constructor
    · intro key
      have hkeys : ∀ key, key ∈ members'.map Prod.fst ↔ key ∈ members.map Prod.fst := fun key =>
        (hperm.map Prod.fst).mem_iff
      rw [FieldTable.ofDescriptor_eq_invalidPath_iff hread',
        FieldTable.ofDescriptor_eq_invalidPath_iff hread]
      exact ⟨.congr hkeys, .congr fun key => (hkeys key).symm⟩
    · intro hdistinct
      have htable := FieldTable.ofEntries_perm hperm hdistinct
      rw [FieldTable.ofDescriptor, FieldTable.ofDescriptor, hread, hread']
      dsimp only
      rw [htable]
  · intro text' table htable
    obtain ⟨-, -, -, hdotted⟩ := FieldTable.ofDescriptor_eq_ok_iff.1 htable
    exact hdotted

/-- Members with a key that stands twice. -/
def repeatedMembers : List (String × FieldType) :=
  [(".b", .number), (".a\"", .number), (".b", .string)]

/-- Members with three keys that are no paths, the least of them last. -/
def strayMembers : List (String × FieldType) :=
  [("é", .string), (".a", .number), ("b", .number), ("B", .string)]

/-- The descriptor of some members on one line. -/
def descriptorOf (members : List (String × FieldType)) : String :=
  String.ofList (Descriptor.Spacing.compact.object members)

theorem readMembers_descriptorOf (members : List (String × FieldType)) :
    Descriptor.readMembers (descriptorOf members).toList = .ok members := by
  rw [descriptorOf, String.toList_ofList]
  exact Descriptor.readMembers_object _ members

/-- The cases of these members: of the two members `.b` the last counts, and `B` is reported, whichever
way round the members stand. -/
theorem descriptor_read_all_or_nothing_repeated :
    (∃ table, FieldTable.ofDescriptor (descriptorOf repeatedMembers) = .ok table ∧
      table[".b"]? = some .string ∧ table.size = 2) ∧
    FieldTable.ofDescriptor (descriptorOf strayMembers) = .error (.invalidPath "B") ∧
    FieldTable.ofDescriptor (descriptorOf strayMembers.reverse) =
      FieldTable.ofDescriptor (descriptorOf strayMembers) := by
  obtain ⟨-, htable, -, -⟩ :=
    descriptor_read_all_or_nothing (readMembers_descriptorOf repeatedMembers)
  obtain ⟨hstray, -, hreorder, -⟩ :=
    descriptor_read_all_or_nothing (readMembers_descriptorOf strayMembers)
  obtain ⟨table, hok, hmembers⟩ := htable (by decide)
  obtain ⟨key, hkey, herror⟩ := hstray ⟨"B", by decide, by decide⟩
  have hleast : IsLeastUndotted (strayMembers.map Prod.fst) "B" :=
    ⟨by decide, by decide, by simp only [← Text.lt_iff_bytes_lt]; decide⟩
  refine ⟨⟨table, hok, ?_, ?_⟩, ?_, ?_⟩
  · exact (hmembers.declared _ _).2 ⟨[(".b", .number), (".a\"", .number)], [], rfl, by simp⟩
  · rw [hmembers.size]
    decide
  · rw [herror, hkey.unique hleast]
  · exact (hreorder _ _ (readMembers_descriptorOf _) (List.reverse_perm _)).2 (by decide)

end QueryPipeline
