import Disassembly.Config.Parse
import Disassembly.Proofs.FailurePropagation
import Mathlib.Data.List.Forall2
import Mathlib.Data.List.Induction
import Mathlib.Data.List.Perm.Basic

/-!
# In which order names are visited

A file of names is a list of objects. The list has an order, but an object is a map from its keys, and
its members can be visited in any order (`Visits`). Which order it is makes no difference as long as
different keys are different addresses. But an address can be spelled in several ways, and then the
last spelling that is visited names it. So an address gets one of the names that it has in the last
object with a key for it, and any of them for some order (`exists_loads_iff`). The name is settled,
and is then that of the last entry in the file, exactly if the object has one name for the address.
-/

namespace Disassembly.Config

/-- The address that a key spells. -/
def address? (key : String) : Option UInt32 :=
  (parseAddress key).toOption

/-- The value of a key in an object; the last member with the key counts. -/
def valueOf? (object : List (String × String)) (key : String) : Option String :=
  object.reverse.lookup key

/-- An order in which the members of an object may be visited: every key once, with its value. -/
structure Visits (object order : List (String × String)) : Prop where
  once : (order.map Prod.fst).Nodup
  members : ∀ key value, (key, value) ∈ order ↔ valueOf? object key = some value

/-- Names that a file of objects may be loaded as: each object is visited in some order, and the
objects one after the other. -/
def Loads (description : String) (objects : List (List (String × String))) (names : Names) : Prop :=
  ∃ orders, List.Forall₂ Visits objects orders ∧
    Names.ofEntries description orders.flatten = .ok names

/-- The name in the last entry for an address. -/
def lastFor? (address : UInt32) (entries : List (String × String)) : Option String :=
  (entries.reverse.find? fun entry => address? entry.1 == some address).map Prod.snd

/-- Whether an object has a key for an address. -/
def hasKeyFor (address : UInt32) (object : List (String × String)) : Bool :=
  object.any fun entry => address? entry.1 == some address

/-- The last object with a key for an address. -/
def lastObject? (address : UInt32) (objects : List (List (String × String))) :
    Option (List (String × String)) :=
  objects.reverse.find? (hasKeyFor address)

/-- A key of the object spells the address and has this name. -/
def NamedBy (object : List (String × String)) (address : UInt32) (name : String) : Prop :=
  ∃ key, address? key = some address ∧ valueOf? object key = some name

/-- The object that decides about an address has one name for it. -/
def NamedOneWay (objects : List (List (String × String))) : Prop :=
  ∀ address object, lastObject? address objects = some object →
    ∀ name other, NamedBy object address name → NamedBy object address other → name = other

/-! ### Adding entries -/

theorem address?_eq_some_iff {key : String} {address : UInt32} :
    address? key = some address ↔ parseAddress key = .ok address := by
  unfold address?
  cases parseAddress key <;> simp [Except.toOption]

theorem lastFor?_append (address : UInt32) (first second : List (String × String)) :
    lastFor? address (first ++ second) = (lastFor? address second).or (lastFor? address first) := by
  simp [lastFor?, List.find?_append, Option.map_or]

theorem lastFor?_eq_none_iff {address : UInt32} {entries : List (String × String)} :
    lastFor? address entries = none ↔ ∀ entry ∈ entries, address? entry.1 ≠ some address := by
  simp [lastFor?]

theorem Names.add_of_address (description : String) (names : Names) {entry : String × String}
    {address : UInt32} (spells : address? entry.1 = some address) :
    names.add description entry = .ok (names.insert address entry.2) := by
  rw [Names.add, address?_eq_some_iff.mp spells]
  rfl

theorem Names.exists_address_of_add {description : String} {names result : Names}
    {entry : String × String} (added : names.add description entry = .ok result) :
    ∃ address, address? entry.1 = some address := by
  cases parsed : parseAddress entry.1 with
  | error fault =>
    rw [Names.add, parsed] at added
    cases added
  | ok address => exact ⟨address, address?_eq_some_iff.mpr parsed⟩

/-- Entries whose keys are addresses can be added, and the last one for an address stays. -/
theorem Names.foldlM_add (description : String) {entries : List (String × String)}
    (spelled : ∀ entry ∈ entries, ∃ address, address? entry.1 = some address) (names : Names) :
    ∃ result, entries.foldlM (Names.add description) names = .ok result ∧
      ∀ address, result[address]? = (lastFor? address entries).or names[address]? := by
  induction entries generalizing names with
  | nil => exact ⟨names, rfl, fun _ => rfl⟩
  | cons entry rest ih =>
    obtain ⟨own, spells⟩ := spelled entry List.mem_cons_self
    obtain ⟨result, returned, found⟩ :=
      ih (fun other member => spelled other (List.mem_cons_of_mem _ member))
        (names.insert own entry.2)
    refine ⟨result, ?_, ?_⟩
    · rw [List.foldlM_cons, names.add_of_address description spells]
      exact returned
    · intro address
      -- The entry shows where no later one does, and hides what was there before it.
      rw [found, ← List.singleton_append, lastFor?_append, Option.or_assoc]
      congr 1
      rw [Std.TreeMap.getElem?_insert]
      by_cases here : own = address
      · simp [here, lastFor?, spells]
      · simp [here, lastFor?, spells]

theorem Names.exists_address_of_foldlM_add {description : String} {entries : List (String × String)}
    {names result : Names} (returned : entries.foldlM (Names.add description) names = .ok result)
    {entry : String × String} (member : entry ∈ entries) :
    ∃ address, address? entry.1 = some address := by
  induction entries generalizing names with
  | nil => cases member
  | cons first rest ih =>
    rw [List.foldlM_cons] at returned
    obtain ⟨next, added, returned⟩ := exists_of_bind_eq_ok returned
    rcases List.mem_cons.mp member with rfl | later
    · exact exists_address_of_add added
    · exact ih returned later

theorem Names.ofEntries_eq_ok {description : String} {entries : List (String × String)}
    {names : Names} (returned : Names.ofEntries description entries = .ok names) :
    (∀ entry ∈ entries, ∃ address, address? entry.1 = some address) ∧
      ∀ address, names[address]? = lastFor? address entries := by
  have spelled (entry : String × String) (member : entry ∈ entries) :=
    exists_address_of_foldlM_add returned member
  obtain ⟨result, again, found⟩ := foldlM_add description spelled {}
  cases returned.symm.trans again
  refine ⟨spelled, fun address => ?_⟩
  rw [found]
  simp

theorem Names.exists_ofEntries_iff {description : String} {entries : List (String × String)} :
    (∃ names, Names.ofEntries description entries = .ok names) ↔
      ∀ entry ∈ entries, ∃ address, address? entry.1 = some address := by
  constructor
  · rintro ⟨names, returned⟩
    exact (ofEntries_eq_ok returned).1
  · intro spelled
    obtain ⟨result, returned, -⟩ := foldlM_add description spelled {}
    exact ⟨result, returned⟩

/-! ### One object -/

theorem lookup_eq_some_of_find? {entries : List (String × String)} {p : String → Bool} {key : String}
    {value : String} (found : entries.find? (fun entry => p entry.1) = some (key, value)) :
    entries.lookup key = some value := by
  induction entries with
  | nil => cases found
  | cons entry rest ih =>
    obtain ⟨own, name⟩ := entry
    rw [List.find?_cons] at found
    split at found
    · cases found
      exact List.lookup_cons_self
    · next other =>
      -- The first key that is accepted is not this one, which is not accepted.
      have apart : (key == own) = false := by
        have accepted := List.find?_some found
        apply beq_false_of_ne
        rintro rfl
        simp [other] at accepted
      rw [List.lookup_cons, apart]
      exact ih found

theorem mem_of_valueOf? {object : List (String × String)} {key value : String}
    (found : valueOf? object key = some value) : (key, value) ∈ object := by
  obtain ⟨front, back, split, -⟩ := List.lookup_eq_some_iff.mp found
  rw [← List.mem_reverse, split]
  exact List.mem_append_right _ List.mem_cons_self

theorem exists_valueOf?_of_mem {object : List (String × String)} {entry : String × String}
    (member : entry ∈ object) : ∃ value, valueOf? object entry.1 = some value := by
  rw [← Option.isSome_iff_exists, valueOf?, Option.isSome_iff_ne_none, ne_eq,
    List.lookup_eq_none_iff]
  intro absent
  simpa using absent entry (List.mem_reverse.mpr member)

theorem valueOf?_concat (object : List (String × String)) (own name key : String) :
    valueOf? (object ++ [(own, name)]) key =
      if own = key then some name else valueOf? object key := by
  rw [valueOf?, List.reverse_concat, List.lookup_cons]
  by_cases same : own = key
  · simp [same]
  · have other : (key == own) = false := beq_false_of_ne (Ne.symm same)
    simp [same, other, valueOf?]

/-- The order by ascending key is one of those in which an object may be visited. -/
theorem visits_visited (object : List (String × String)) : Visits object (visited object) := by
  have value (key : String) : (Std.TreeMap.ofList object)[key]? = valueOf? object key := by
    -- What is inserted last stays, in the map as in the object.
    induction object using List.reverseRecOn with
    | nil => rfl
    | append_singleton object entry ih =>
      obtain ⟨own, name⟩ := entry
      rw [Std.TreeMap.ofList_eq_insertMany_empty, Std.TreeMap.insertMany_append,
        ← Std.TreeMap.ofList_eq_insertMany_empty, Std.TreeMap.insertMany_list_singleton,
        Std.TreeMap.getElem?_insert, ih, valueOf?_concat]
      simp
  constructor
  · have apart := Std.TreeMap.distinct_keys_toList (t := Std.TreeMap.ofList object)
    rw [List.Nodup, List.pairwise_map]
    exact apart.imp fun different same => different (by simp [same])
  · intro key name
    rw [visited, Std.TreeMap.mem_toList_iff_getElem?_eq_some, value]

theorem Visits.perm {object order other : List (String × String)} (visits : Visits object order)
    (same : order.Perm other) : Visits object other where
  once := (same.map Prod.fst).nodup_iff.mp visits.once
  members key value := by rw [← same.mem_iff, visits.members]

theorem hasKeyFor_iff {object : List (String × String)} {address : UInt32} :
    hasKeyFor address object = true ↔ ∃ name, NamedBy object address name := by
  simp only [hasKeyFor, List.any_eq_true, beq_iff_eq]
  constructor
  · rintro ⟨entry, member, spells⟩
    obtain ⟨name, found⟩ := exists_valueOf?_of_mem member
    exact ⟨name, entry.1, spells, found⟩
  · rintro ⟨name, key, spells, found⟩
    exact ⟨(key, name), mem_of_valueOf? found, spells⟩

/-- Entries that name the addresses that an object has keys for, each by one of its names. -/
structure Shows (object entries : List (String × String)) : Prop where
  named : ∀ address name, lastFor? address entries = some name → NamedBy object address name
  silent : ∀ address, lastFor? address entries = none ↔ hasKeyFor address object = false

theorem Visits.shows {object order : List (String × String)} (visits : Visits object order) :
    Shows object order where
  named address name found := by
    obtain ⟨⟨key, value⟩, last, rfl⟩ := Option.map_eq_some_iff.mp found
    have spells : address? key = some address := by simpa using List.find?_some last
    have member := List.mem_reverse.mp (List.mem_of_find?_eq_some last)
    exact ⟨key, spells, (visits.members key value).mp member⟩
  silent address := by
    rw [lastFor?_eq_none_iff, ← Bool.not_eq_true, hasKeyFor_iff]
    constructor
    · rintro absent ⟨name, key, spells, found⟩
      exact absent (key, name) ((visits.members key name).mpr found) spells
    · intro silent entry member spells
      exact silent ⟨entry.2, entry.1, spells, (visits.members _ _).mp member⟩

/-- The order of the file shows an object too, although it may hold a key more than once: the last
entry for an address is the last one for its key. -/
theorem shows_self (object : List (String × String)) : Shows object object where
  named address name found := by
    obtain ⟨⟨key, value⟩, last, rfl⟩ := Option.map_eq_some_iff.mp found
    have spells : address? key = some address := by simpa using List.find?_some last
    exact ⟨key, spells, lookup_eq_some_of_find? (p := (address? · == some address)) last⟩
  silent address := by
    rw [lastFor?_eq_none_iff]
    simp [hasKeyFor]

/-- Every name of an address is the last one in some order. -/
theorem NamedBy.exists_visits {object : List (String × String)} {address : UInt32} {name : String}
    (named : NamedBy object address name) :
    ∃ order, Visits object order ∧ lastFor? address order = some name := by
  obtain ⟨key, spells, found⟩ := named
  have visits := visits_visited object
  have member := (visits.members key name).mpr found
  -- Any order will do, with the member moved to its end.
  refine ⟨(visited object).erase (key, name) ++ [(key, name)], visits.perm ?_, ?_⟩
  · exact (List.perm_cons_erase member).trans (List.perm_append_singleton _ _).symm
  · rw [lastFor?_append]
    simp [lastFor?, spells]

/-! ### Objects one after the other -/

theorem lastObject?_cons (address : UInt32) (object : List (String × String))
    (rest : List (List (String × String))) :
    lastObject? address (object :: rest) = (lastObject? address rest).or
      (if hasKeyFor address object then some object else none) := by
  simp [lastObject?, List.find?_append, List.find?_singleton]

/-- The last object with a key for an address decides about it. -/
theorem lastFor?_flatten {objects orders : List (List (String × String))}
    (shown : List.Forall₂ Shows objects orders) (address : UInt32) :
    (lastFor? address orders.flatten = none ↔ lastObject? address objects = none) ∧
      ∀ name, lastFor? address orders.flatten = some name →
        ∃ object, lastObject? address objects = some object ∧ NamedBy object address name := by
  induction shown with
  | nil => exact ⟨⟨fun _ => rfl, fun _ => rfl⟩, nofun⟩
  | @cons object order rest others here _ ih =>
    obtain ⟨silent, named⟩ := ih
    rw [List.flatten_cons, lastFor?_append, lastObject?_cons]
    cases behind : lastFor? address others.flatten with
    | some name =>
      -- A later object has a key for the address.
      obtain ⟨later, last, names⟩ := named name behind
      simp only [last, Option.some_or]
      refine ⟨by simp, ?_⟩
      rintro _ ⟨⟩
      exact ⟨later, rfl, names⟩
    | none =>
      simp only [silent.mp behind, Option.none_or]
      constructor
      · simp [here.silent address]
      · intro name last
        have decides : hasKeyFor address object = true :=
          hasKeyFor_iff.mpr ⟨name, here.named address name last⟩
        exact ⟨object, by simp [decides], here.named address name last⟩

theorem forall₂_visits_visited (objects : List (List (String × String))) :
    List.Forall₂ Visits objects (objects.map visited) := by
  rw [List.forall₂_map_right_iff]
  exact List.forall₂_same.mpr fun object _ => visits_visited object

/-- Any name for an address in the object that decides about it is given to it by some order. -/
theorem exists_orders {objects : List (List (String × String))} {object : List (String × String)}
    {address : UInt32} (last : lastObject? address objects = some object) {name : String}
    (named : NamedBy object address name) :
    ∃ orders, List.Forall₂ Visits objects orders ∧ lastFor? address orders.flatten = some name := by
  induction objects with
  | nil => cases last
  | cons first rest ih =>
    rw [lastObject?_cons] at last
    cases later : lastObject? address rest with
    | some decides =>
      rw [later] at last
      cases last
      obtain ⟨orders, visits, found⟩ := ih later
      refine ⟨visited first :: orders, .cons (visits_visited first) visits, ?_⟩
      rw [List.flatten_cons, lastFor?_append, found, Option.some_or]
    | none =>
      -- No later object has a key, so it is `first` whose order matters.
      rw [later, Option.none_or] at last
      split at last
      · cases last
        obtain ⟨order, visits, found⟩ := named.exists_visits
        have others := forall₂_visits_visited rest
        have silent := (lastFor?_flatten (others.imp fun _ _ => Visits.shows) address).1.mpr later
        refine ⟨order :: rest.map visited, .cons visits others, ?_⟩
        rw [List.flatten_cons, lastFor?_append, silent, Option.none_or, found]
      · cases last

/-! ### Loading a file -/

/-- An order holds the keys of its object. -/
theorem Visits.forall_keys_iff {object order : List (String × String)} (visits : Visits object order)
    (p : String → Prop) : (∀ entry ∈ order, p entry.1) ↔ ∀ entry ∈ object, p entry.1 := by
  constructor
  · intro all entry member
    obtain ⟨value, found⟩ := exists_valueOf?_of_mem member
    exact all (entry.1, value) ((visits.members _ _).mpr found)
  · intro all entry member
    exact all _ (mem_of_valueOf? ((visits.members entry.1 entry.2).mp member))

theorem forall_keys_flatten_iff {objects orders : List (List (String × String))}
    (visits : List.Forall₂ Visits objects orders) (p : String → Prop) :
    (∀ entry ∈ orders.flatten, p entry.1) ↔ ∀ entry ∈ objects.flatten, p entry.1 := by
  induction visits with
  | nil => rfl
  | cons here _ ih =>
    simp only [List.flatten_cons, List.forall_mem_append]
    rw [here.forall_keys_iff, ih]

/-- Whether a file can be loaded does not depend on the orders. -/
theorem exists_ofEntries_iff_of_visits (description : String)
    {objects orders : List (List (String × String))} (visits : List.Forall₂ Visits objects orders) :
    (∃ names, Names.ofEntries description orders.flatten = .ok names) ↔
      ∀ entry ∈ objects.flatten, ∃ address, parseAddress entry.1 = .ok address := by
  rw [Names.exists_ofEntries_iff]
  simp only [address?_eq_some_iff]
  exact forall_keys_flatten_iff visits fun key => ∃ address, parseAddress key = .ok address

theorem NamedOneWay.lastFor?_eq {objects first second : List (List (String × String))}
    (oneWay : NamedOneWay objects) (shown : List.Forall₂ Shows objects first)
    (again : List.Forall₂ Shows objects second) (address : UInt32) :
    lastFor? address first.flatten = lastFor? address second.flatten := by
  obtain ⟨silent, named⟩ := lastFor?_flatten shown address
  obtain ⟨silent', named'⟩ := lastFor?_flatten again address
  cases found : lastFor? address first.flatten with
  | none => rw [silent'.mpr (silent.mp found)]
  | some name =>
    cases other : lastFor? address second.flatten with
    | none =>
      rw [silent.mpr (silent'.mp other)] at found
      cases found
    | some name' =>
      -- Both names come from the same object.
      obtain ⟨object, last, names⟩ := named name found
      obtain ⟨object', last', names'⟩ := named' name' other
      cases last.symm.trans last'
      rw [oneWay address object last name name' names names']

section Spelled

variable (description : String) {objects : List (List (String × String))}
  (spelled : ∀ entry ∈ objects.flatten, ∃ address, parseAddress entry.1 = .ok address)

include spelled

theorem exists_loads_of_visits {orders : List (List (String × String))}
    (visits : List.Forall₂ Visits objects orders) :
    ∃ names, Loads description objects names ∧
      ∀ address, names[address]? = lastFor? address orders.flatten := by
  obtain ⟨names, returned⟩ := (exists_ofEntries_iff_of_visits description visits).mpr spelled
  exact ⟨names, ⟨orders, visits, returned⟩, (Names.ofEntries_eq_ok returned).2⟩

theorem exists_loads_iff (address : UInt32) (name : String) :
    (∃ names, Loads description objects names ∧ names[address]? = some name) ↔
      ∃ object, lastObject? address objects = some object ∧ NamedBy object address name := by
  constructor
  · rintro ⟨names, ⟨orders, visits, returned⟩, found⟩
    rw [(Names.ofEntries_eq_ok returned).2] at found
    exact (lastFor?_flatten (visits.imp fun _ _ => Visits.shows) address).2 name found
  · rintro ⟨object, last, named⟩
    obtain ⟨orders, visits, found⟩ := exists_orders last named
    obtain ⟨names, loads, same⟩ := exists_loads_of_visits description spelled visits
    exact ⟨names, loads, (same address).trans found⟩

/-- If all orders agree, then the objects that decide have one name for each address. -/
theorem namedOneWay_of_agree
    (agree : ∀ names other, Loads description objects names → Loads description objects other →
      ∀ address : UInt32, names[address]? = other[address]?) : NamedOneWay objects := by
  intro address object last name other named named'
  obtain ⟨names, loads, found⟩ :=
    (exists_loads_iff description spelled address name).mpr ⟨object, last, named⟩
  obtain ⟨names', loads', found'⟩ :=
    (exists_loads_iff description spelled address other).mpr ⟨object, last, named'⟩
  have same := agree names names' loads loads' address
  rw [found, found'] at same
  exact Option.some.inj same

end Spelled

theorem NamedOneWay.getElem?_of_loads {description : String}
    {objects : List (List (String × String))} (oneWay : NamedOneWay objects) {names : Names}
    (loads : Loads description objects names) (address : UInt32) :
    names[address]? = lastFor? address objects.flatten := by
  obtain ⟨orders, visits, returned⟩ := loads
  rw [(Names.ofEntries_eq_ok returned).2]
  apply oneWay.lastFor?_eq (visits.imp fun _ _ => Visits.shows)
  exact List.forall₂_same.mpr fun object _ => shows_self object

/-- Whether a file of names is loaded depends on its keys alone. If it is, an address gets one of the
names in the last object with a key for it, and any of them for some order of visiting. The names are
the same for all orders, and are those of the last entries in the file, exactly if that object never
has two names for the address. A file is loaded in one of these orders. -/
theorem names_settled_iff_namedOneWay (description : String)
    (objects : List (List (String × String))) :
    (∀ orders, List.Forall₂ Visits objects orders →
      ((∃ names, Names.ofEntries description orders.flatten = .ok names) ↔
        ∀ entry ∈ objects.flatten, ∃ address, parseAddress entry.1 = .ok address)) ∧
    ((∀ entry ∈ objects.flatten, ∃ address, parseAddress entry.1 = .ok address) →
      (∀ address name,
        (∃ names, Loads description objects names ∧ names[address]? = some name) ↔
          ∃ object, lastObject? address objects = some object ∧ NamedBy object address name) ∧
      ((∀ names other, Loads description objects names → Loads description objects other →
          ∀ address : UInt32, names[address]? = other[address]?) ↔ NamedOneWay objects) ∧
      ((∀ names, Loads description objects names →
          ∀ address, names[address]? = lastFor? address objects.flatten) ↔ NamedOneWay objects)) ∧
    ∀ source : Source, source.readJson description
        (Json.Reader.listOf (Json.Reader.mapOf Json.Reader.string)) = .ok objects →
      ∃ orders, List.Forall₂ Visits objects orders ∧
        parseNames description source =
          source.located (Names.ofEntries description orders.flatten) := by
  refine ⟨fun orders => exists_ofEntries_iff_of_visits description, ?_, ?_⟩
  · intro spelled
    refine ⟨exists_loads_iff description spelled, ?_, ?_⟩
    · constructor
      · exact namedOneWay_of_agree description spelled
      · intro oneWay names other loads loads' address
        rw [oneWay.getElem?_of_loads loads, oneWay.getElem?_of_loads loads']
    · constructor
      · intro settled
        apply namedOneWay_of_agree description spelled
        intro names other loads loads' address
        rw [settled names loads, settled other loads']
      · intro oneWay names loads
        exact oneWay.getElem?_of_loads loads
  · intro source read
    refine ⟨objects.map visited, forall₂_visits_visited objects, ?_⟩
    rw [parseNames, read]
    rfl

/-- An object that spells an address in two ways, and a file that holds it. -/
def spelledTwice : List (String × String) :=
  [("10", "old"), ("0x10", "new")]

def spelledTwiceFile : Source where
  content := .file "[\x7b\"10\": \"old\", \"0x10\": \"new\"\x7d]".toUTF8

/-- The name of the address depends on the order of visiting. The file is loaded with one that is not
the name in its last entry. -/
theorem name_of_spelledTwice_depends_on_order :
    ∃ names other,
      Loads "labels" [spelledTwice] names ∧ Loads "labels" [spelledTwice] other ∧
      lastFor? 0x10 [spelledTwice].flatten = some "new" ∧
      other[(0x10 : UInt32)]? = some "new" ∧ names[(0x10 : UInt32)]? = some "old" ∧
      parseNames "labels" spelledTwiceFile = .ok names := by
  have spelled : ∀ entry ∈ [spelledTwice].flatten, ∃ address, parseAddress entry.1 = .ok address := by
    intro entry member
    refine ⟨0x10, address?_eq_some_iff.mp ?_⟩
    revert entry
    decide
  -- Visited by key, the object ends with `10`; in another order it ends with `0x10`.
  have visits := forall₂_visits_visited [spelledTwice]
  obtain ⟨names, returned⟩ := (exists_ofEntries_iff_of_visits "labels" visits).mpr spelled
  obtain ⟨other, loads, found⟩ := (exists_loads_iff "labels" spelled 0x10 "new").mpr
    ⟨spelledTwice, by decide, "0x10", by decide, by decide⟩
  refine ⟨names, other, ⟨_, visits, returned⟩, loads, by decide, found, ?_, ?_⟩
  · rw [(Names.ofEntries_eq_ok returned).2]
    decide +kernel
  · have read : spelledTwiceFile.readJson "labels"
        (Json.Reader.listOf (Json.Reader.mapOf Json.Reader.string)) = .ok [spelledTwice] :=
      eq_ok_of_toOption (by decide +kernel)
    rw [parseNames, read]
    exact returned

end Disassembly.Config
