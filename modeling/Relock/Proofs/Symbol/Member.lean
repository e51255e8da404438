import Mathlib.Data.List.TakeWhile
import Relock.Symbol.Table

/-!
# Members of embedded types

A name selects a member of a type itself, else one of a type embedded in it. The search for it takes
the shallowest types first and looks at no type twice, so it comes to an end also where types embed
each other, and what it finds is at the least depth at which there is anything to find.

A type that has been looked at leaves the table. What the search can still find is therefore what
the waiting types lead to through the rest of the table, and the types that have left it matter no
more.
-/

namespace Relock

namespace NamedType

/-- A named type has a member of a name: a method, a field, or a method that the interface asks
for. -/
inductive Has (type : NamedType) (name : String) : SymbolId → Prop
  | method {id : SymbolId} (found : type.methods[name]? = some id) : Has type name id
  | field {fields : List FieldInfo} {field : FieldInfo} (struct : type.underlying = .struct fields)
      (listed : field ∈ fields) (called : field.name = name) : Has type name field.symbol
  | required {methods : Scope SymbolId} {id : SymbolId}
      (interface : type.underlying = .interface methods) (found : methods[name]? = some id) :
      Has type name id

/-- A named type is a structure with an embedded field of another one, or of pointers to it. -/
def Embeds (type : NamedType) (inner : NamedRef) : Prop :=
  ∃ fields, type.underlying = .struct fields ∧
    ∃ field ∈ fields, field.embedded = true ∧ field.type.named? = some inner

variable {type : NamedType} {name : String} {id : SymbolId}

theorem mem_embedded {inner : NamedRef} : inner ∈ type.embedded ↔ type.Embeds inner := by
  unfold embedded Embeds
  cases type.underlying with
  | struct fields => simp [List.mem_filterMap, List.mem_filter, and_assoc]
  | interface methods => simp
  | other target => simp

theorem member?_of_method (found : type.methods[name]? = some id) : type.member? name = some id := by
  rw [member?, found]

theorem has_of_member? (found : type.member? name = some id) : type.Has name id := by
  rw [member?] at found
  cases method : type.methods[name]? with
  | some own =>
      rw [method] at found
      cases found
      exact .method method
  | none =>
      simp only [method] at found
      cases made : type.underlying with
      | struct fields =>
          simp only [made, Option.map_eq_some_iff] at found
          obtain ⟨field, first, rfl⟩ := found
          have called : field.name = name := by simpa using List.find?_some first
          exact .field made (List.mem_of_find?_eq_some first) called
      | interface methods =>
          simp only [made] at found
          exact .required made found
      | other target => simp [made] at found

theorem not_has_of_member?_eq_none (missing : type.member? name = none) : ¬ type.Has name id := by
  rw [member?] at missing
  cases method : type.methods[name]? with
  | some own => simp [method] at missing
  | none =>
      simp only [method] at missing
      rintro (found | ⟨struct, listed, rfl⟩ | ⟨interface, found⟩)
      · simp [method] at found
      · simp only [struct, Option.map_eq_none_iff, List.find?_eq_none] at missing
        exact missing _ listed (beq_self_eq_true _)
      · simp [interface, found] at missing

end NamedType

namespace Tables

/-- A named type of a table leads to another one through a number of embedded fields. -/
inductive EmbedsAt (table : Std.TreeMap NamedRef NamedType) : NamedRef → Nat → NamedRef → Prop
  | here (ref : NamedRef) : EmbedsAt table ref 0 ref
  | inside {outer between inner : NamedRef} {depth : Nat} {type : NamedType}
      (listed : table[outer]? = some type) (embeds : type.Embeds between)
      (further : EmbedsAt table between depth inner) : EmbedsAt table outer (depth + 1) inner

namespace EmbedsAt

variable {table : Std.TreeMap NamedRef NamedType} {outer inner gone : NamedRef} {depth : Nat}
  {type : NamedType}

theorem of_erase (leads : EmbedsAt (table.erase gone) outer depth inner) :
    EmbedsAt table outer depth inner := by
  induction leads with
  | here ref => exact .here ref
  | inside listed embeds _ ih =>
      rw [Std.TreeMap.getElem?_erase] at listed
      split at listed
      · cases listed
      · exact .inside listed embeds ih

/-- Without one type, what was reached through it is reached sooner from what it embeds. -/
theorem erase (leads : EmbedsAt table outer depth inner) (listed : table[gone]? = some type) :
    EmbedsAt (table.erase gone) outer depth inner ∨
      ∃ between, type.Embeds between ∧ ∃ less < depth, EmbedsAt (table.erase gone) between less inner := by
  induction leads with
  | here ref => exact .inl (.here ref)
  | @inside outer between inner depth other found embeds further ih =>
      rcases ih with kept | ⟨between, embedded, less, shorter, kept⟩
      · by_cases same : gone = outer
        · subst same
          cases listed.symm.trans found
          exact .inr ⟨between, embeds, depth, Nat.lt_succ_self depth, kept⟩
        · refine .inl (.inside ?_ embeds kept)
          rw [Std.TreeMap.getElem?_erase, if_neg (by simpa using same), found]
      · exact .inr ⟨between, embedded, less, Nat.lt_succ_of_lt shorter, kept⟩

theorem contains_outer (leads : EmbedsAt table outer depth inner)
    (listed : table[inner]? = some type) : table.contains outer = true := by
  rw [Std.TreeMap.contains_eq_isSome_getElem?]
  cases leads with
  | here => rw [listed, Option.isSome_some]
  | inside found => rw [found, Option.isSome_some]

end EmbedsAt

variable {table : Std.TreeMap NamedRef NamedType} {waiting later : List (Nat × NamedRef)}
  {depth : Nat} {ref : NamedRef} {type : NamedType} {name : String} {answer : Option SymbolId}
  {budget : Nat}

/-- A named type of a table is embedded at some depth in one of those that wait, each of which waits
with its own depth. -/
def Awaited (table : Std.TreeMap NamedRef NamedType) (waiting : List (Nat × NamedRef)) (depth : Nat)
    (ref : NamedRef) (type : NamedType) : Prop :=
  table[ref]? = some type ∧
    ∃ item ∈ waiting, ∃ further, EmbedsAt table item.2 further ref ∧ item.1 + further = depth

/-- The types that wait and are not in the table lead to nothing. -/
theorem awaited_dropWhile_iff :
    Awaited table (waiting.dropWhile fun item => !table.contains item.2) depth ref type ↔
      Awaited table waiting depth ref type := by
  constructor
  · rintro ⟨listed, item, waits, leads⟩
    exact ⟨listed, item, (List.dropWhile_sublist _).subset waits, leads⟩
  · rintro ⟨listed, item, waits, further, embeds, sum⟩
    refine ⟨listed, item, ?_, further, embeds, sum⟩
    rw [← List.takeWhile_append_dropWhile (p := fun item : Nat × NamedRef => !table.contains item.2)
      (l := waiting), List.mem_append] at waits
    refine waits.resolve_left fun taken => ?_
    have absent := List.mem_takeWhile_imp
      (p := fun item : Nat × NamedRef => !table.contains item.2) taken
    rw [embeds.contains_outer listed] at absent
    cases absent

/-- What waits after a type has been looked at: the rest, and the types embedded in it. -/
def afterLook (item : Nat × NamedRef) (type : NamedType) (later : List (Nat × NamedRef)) :
    List (Nat × NamedRef) :=
  later ++ type.embedded.map fun inner => (item.1 + 1, inner)

section Look

variable {item : Nat × NamedRef} {own : NamedType} (listed : table[item.2]? = some own)
include listed

/-- Nothing new is awaited after a type has been looked at. -/
theorem Awaited.of_afterLook
    (awaited : Awaited (table.erase item.2) (afterLook item own later) depth ref type) :
    Awaited table (item :: later) depth ref type := by
  obtain ⟨found, next, waits, further, embeds, sum⟩ := awaited
  rw [Std.TreeMap.getElem?_erase] at found
  split at found
  · cases found
  · refine ⟨found, ?_⟩
    rcases List.mem_append.mp waits with waits | inner
    · exact ⟨next, List.mem_cons_of_mem _ waits, further, embeds.of_erase, sum⟩
    · obtain ⟨inner, embedded, rfl⟩ := List.mem_map.mp inner
      refine ⟨item, List.mem_cons_self, further + 1, ?_, by omega⟩
      exact .inside listed (NamedType.mem_embedded.mp embedded) embeds.of_erase

/-- All that was awaited is still awaited, at no greater depth, but for the type that has been looked
at. This needs that no type waits with a smaller depth. -/
theorem Awaited.afterLook (awaited : Awaited table (item :: later) depth ref type)
    (other : ref ≠ item.2) (least : ∀ next ∈ later, item.1 ≤ next.1) :
    ∃ less ≤ depth, Awaited (table.erase item.2) (afterLook item own later) less ref type := by
  obtain ⟨found, next, waits, further, embeds, rfl⟩ := awaited
  have kept : (table.erase item.2)[ref]? = some type := by
    rw [Std.TreeMap.getElem?_erase, if_neg (by simpa using other.symm), found]
  have below : item.1 ≤ next.1 := by
    rcases List.mem_cons.mp waits with rfl | waits
    · exact Nat.le_refl _
    · exact least next waits
  rcases embeds.erase listed with along | ⟨between, embedded, less, shorter, along⟩
  · rcases List.mem_cons.mp waits with rfl | waits
    · have absent := along.contains_outer kept
      simp at absent
    · exact ⟨_, Nat.le_refl _, kept, next, List.mem_append_left _ waits, further, along, rfl⟩
  · refine ⟨item.1 + 1 + less, by omega, kept, (item.1 + 1, between), ?_, less, along, rfl⟩
    exact List.mem_append_right _ (List.mem_map.mpr
      ⟨between, NamedType.mem_embedded.mpr embedded, rfl⟩)

end Look

/-- An answer is right for what waits: nothing is said only if no type that is awaited has a member
of the name, and a member that is named belongs to one at the least depth. -/
def Answers (table : Std.TreeMap NamedRef NamedType) (waiting : List (Nat × NamedRef))
    (name : String) : Option SymbolId → Prop
  | none => ∀ depth ref type, Awaited table waiting depth ref type → type.member? name = none
  | some id => ∃ depth ref type, Awaited table waiting depth ref type ∧
      type.member? name = some id ∧ ∀ other next entry, Awaited table waiting other next entry →
        entry.member? name ≠ none → depth ≤ other

theorem answers_dropWhile_iff :
    Answers table (waiting.dropWhile fun item => !table.contains item.2) name answer ↔
      Answers table waiting name answer := by
  cases answer <;> simp only [Answers, awaited_dropWhile_iff]

/-- An answer that is right after a type without the member has been looked at was right before. -/
theorem Answers.of_afterLook {item : Nat × NamedRef} {own : NamedType}
    (listed : table[item.2]? = some own) (missing : own.member? name = none)
    (least : ∀ next ∈ later, item.1 ≤ next.1)
    (answers : Answers (table.erase item.2) (afterLook item own later) name answer) :
    Answers table (item :: later) name answer := by
  have still {depth : Nat} {ref : NamedRef} {type : NamedType}
      (awaited : Awaited table (item :: later) depth ref type) (offers : type.member? name ≠ none) :
      ∃ less ≤ depth, Awaited (table.erase item.2) (Tables.afterLook item own later) less ref type := by
    refine awaited.afterLook listed (fun same => offers ?_) least
    subst same
    cases listed.symm.trans awaited.1
    exact missing
  cases answer with
  | none =>
      intro depth ref type awaited
      by_contra offers
      obtain ⟨less, -, kept⟩ := still awaited offers
      exact offers (answers less ref type kept)
  | some id =>
      obtain ⟨depth, ref, type, kept, found, first⟩ := answers
      refine ⟨depth, ref, type, kept.of_afterLook listed, found, fun other next entry awaited offers => ?_⟩
      obtain ⟨less, below, kept⟩ := still awaited offers
      exact Nat.le_trans (first less next entry kept offers) below

/-- The types wait in the order of their depths, which differ by one at most. -/
structure Level (waiting : List (Nat × NamedRef)) : Prop where
  ordered : waiting.Pairwise fun item next => item.1 ≤ next.1
  close : ∀ item ∈ waiting, ∀ next ∈ waiting, next.1 ≤ item.1 + 1

namespace Level

theorem sublist (level : Level waiting) (part : later.Sublist waiting) : Level later where
  ordered := level.ordered.sublist part
  close item listed next other := level.close item (part.subset listed) next (part.subset other)

theorem afterLook {item : Nat × NamedRef} (level : Level (item :: later)) (type : NamedType) :
    Level (Tables.afterLook item type later) := by
  have least (next) (waits : next ∈ later) : item.1 ≤ next.1 :=
    List.rel_of_pairwise_cons level.ordered waits
  have most (next) (waits : next ∈ later) : next.1 ≤ item.1 + 1 :=
    level.close item List.mem_cons_self next (List.mem_cons_of_mem _ waits)
  have range (next) (waits : next ∈ Tables.afterLook item type later) :
      item.1 ≤ next.1 ∧ next.1 ≤ item.1 + 1 := by
    rcases List.mem_append.mp waits with waits | inner
    · exact ⟨least next waits, most next waits⟩
    · obtain ⟨inner, -, rfl⟩ := List.mem_map.mp inner
      exact ⟨Nat.le_succ _, Nat.le_refl _⟩
  refine ⟨List.pairwise_append.mpr ⟨level.ordered.of_cons, ?_, fun next waits other inner => ?_⟩,
    fun next waits other others => ?_⟩
  · exact List.pairwise_map.mpr (List.pairwise_of_forall fun _ _ => Nat.le_refl _)
  · obtain ⟨inner, -, rfl⟩ := List.mem_map.mp inner
    exact most next waits
  · have low := range next waits
    have high := range other others
    omega

end Level

theorem size_erase_lt (found : table[ref]? = some type) (room : table.size < budget + 1) :
    (table.erase ref).size < budget := by
  have member : table.contains ref = true := by
    rw [Std.TreeMap.contains_eq_isSome_getElem?, found]
    rfl
  have nonempty : table.size ≠ 0 := by
    intro empty
    simp_all [Std.TreeMap.isEmpty_eq_size_eq_zero, Std.TreeMap.contains_of_isEmpty]
  rw [Std.TreeMap.size_erase, if_pos member]
  omega

/-- The search answers rightly when its budget exceeds the number of types in the table. -/
theorem answers_searchMember (name : String) (room : table.size < budget) (level : Level waiting) :
    Answers table waiting name (searchMember name budget table (waiting.map Prod.snd)) := by
  induction budget generalizing table waiting with
  | zero => exact absurd room (Nat.not_lt_zero _)
  | succ budget ih =>
      rw [← answers_dropWhile_iff, searchMember, List.dropWhile_map]
      simp only [Function.comp_def]
      have kept := level.sublist (List.dropWhile_sublist fun item => !table.contains item.2)
      have first := List.head?_dropWhile_not (fun item => !table.contains item.2) waiting
      cases left : waiting.dropWhile fun item => !table.contains item.2 with
      | nil =>
          rintro depth ref type ⟨-, item, listed, -⟩
          cases listed
      | cons item later =>
          rw [left] at kept
          have present : table.contains item.2 = true := by simpa [left] using first
          have least (next) (waits : next ∈ later) := List.rel_of_pairwise_cons kept.ordered waits
          rw [Std.TreeMap.contains_eq_isSome_getElem?, Option.isSome_iff_exists] at present
          obtain ⟨type, listed⟩ := present
          simp only [List.map_cons, listed]
          cases found : type.member? name with
          | some id =>
              refine ⟨item.1, item.2, type, ⟨listed, item, List.mem_cons_self, 0, .here _, rfl⟩, found,
                fun other next entry awaited _ => ?_⟩
              obtain ⟨-, before, waits, further, -, rfl⟩ := awaited
              rcases List.mem_cons.mp waits with rfl | waits
              · exact Nat.le_add_right _ _
              · exact Nat.le_add_right_of_le (least before waits)
          | none =>
              have embedded : later.map Prod.snd ++ type.embedded =
                  (afterLook item type later).map Prod.snd := by
                simp [afterLook, Function.comp_def]
              refine Answers.of_afterLook listed found least ?_
              simp only [embedded]
              exact ih (size_erase_lt listed room) (kept.afterLook type)

/-- The search comes to an end by itself: a larger budget makes no difference. -/
theorem searchMember_eq_of_lt (name : String) {larger : Nat} (room : table.size < budget)
    (enough : table.size < larger) (waiting : List NamedRef) :
    searchMember name larger table waiting = searchMember name budget table waiting := by
  induction budget generalizing larger table waiting with
  | zero => exact absurd room (Nat.not_lt_zero _)
  | succ budget ih =>
      obtain _ | larger := larger
      · exact absurd enough (Nat.not_lt_zero _)
      rw [searchMember, searchMember]
      cases waiting.dropWhile fun ref => !table.contains ref with
      | nil => rfl
      | cons ref waiting =>
          cases listed : table[ref]? with
          | none => simp only [listed]
          | some type =>
              simp only [listed]
              cases found : type.member? name with
              | some id => rfl
              | none => exact ih (size_erase_lt listed room) (size_erase_lt listed enough) _

/-- A type, or a pointer to it, leads to a named type of the tables through a number of embedded
fields. -/
def Reaches (tables : Tables) (type : TypeRef) (depth : Nat) (ref : NamedRef) (entry : NamedType) :
    Prop :=
  tables.named[ref]? = some entry ∧
    ∃ start, type.named? = some start ∧ EmbedsAt tables.named start depth ref

theorem awaited_iff_reaches {tables : Tables} {type : TypeRef} {entry : NamedType} :
    Awaited tables.named (type.named?.toList.map fun start => (0, start)) depth ref entry ↔
      tables.Reaches type depth ref entry := by
  simp [Awaited, Reaches]

/-- The search for a member ends however types embed each other. It finds nothing exactly when no
type that is reached has a member of the name, and otherwise it finds a member of a type that is
reached through the fewest embedded fields; at that type a method comes before a field. -/
theorem member?_shallowest (tables : Tables) (type : TypeRef) (name : String) :
    (∀ budget, tables.named.size < budget →
      searchMember name budget tables.named type.named?.toList = tables.member? type name) ∧
    (tables.member? type name = none ↔
      ∀ depth ref entry, tables.Reaches type depth ref entry → ∀ id, ¬ entry.Has name id) ∧
    ∀ id, tables.member? type name = some id →
      ∃ depth ref entry, tables.Reaches type depth ref entry ∧ entry.Has name id ∧
        (∀ method, entry.methods[name]? = some method → id = method) ∧
        ∀ other next inner, tables.Reaches type other next inner →
          ∀ member, inner.Has name member → depth ≤ other := by
  have room : tables.named.size < tables.named.size + 1 := Nat.lt_succ_self _
  refine ⟨fun budget enough => searchMember_eq_of_lt name room enough _, ?_⟩
  have level : Level (type.named?.toList.map fun start => (0, start)) := by
    cases type.named? with
    | none => exact ⟨.nil, nofun⟩
    | some start => exact ⟨List.pairwise_singleton _ _, by simp⟩
  have answers := answers_searchMember name room level
  rw [List.map_map, Function.comp_def, List.map_id', ← member?] at answers
  cases found : tables.member? type name with
  | none =>
      rw [found] at answers
      refine ⟨iff_of_true rfl fun depth ref entry reached id => ?_, nofun⟩
      exact NamedType.not_has_of_member?_eq_none
        (answers depth ref entry (awaited_iff_reaches.mpr reached))
  | some id =>
      rw [found] at answers
      obtain ⟨depth, ref, entry, awaited, selected, first⟩ := answers
      have reached := awaited_iff_reaches.mp awaited
      have has := NamedType.has_of_member? selected
      refine ⟨iff_of_false nofun fun none_has => none_has depth ref entry reached id has, ?_⟩
      rintro _ ⟨⟩
      refine ⟨depth, ref, entry, reached, has, fun method own => ?_, ?_⟩
      · exact Option.some.inj (selected.symm.trans (NamedType.member?_of_method own))
      · intro other next inner reached member has
        exact first other next inner (awaited_iff_reaches.mpr reached) fun missing =>
          NamedType.not_has_of_member?_eq_none missing has

/-! ## Types that embed each other -/

/-- Two structures that embed each other, one of them through a pointer; that one has a field as
well. -/
def entwined : Tables :=
  let outer := .struct [⟨"Inner", 70, .pointer (.named ⟨2, "Inner"⟩), true⟩]
  let inner := .struct
    [⟨"Outer", 71, .named ⟨2, "Outer"⟩, true⟩, ⟨"mu", 72, .named ⟨1, "RWMutex"⟩, false⟩]
  (setNamed {} ⟨2, "Outer"⟩ { underlying := outer }).setNamed ⟨2, "Inner"⟩ { underlying := inner }

/-- A member of the second structure is found from the first one, and the search ends also when there
is nothing to find. -/
theorem entwined_member :
    entwined.member? (.pointer (.named ⟨2, "Outer"⟩)) "mu" = some 72 ∧
      entwined.member? (.named ⟨2, "Outer"⟩) "missing" = none ∧
      ∀ depth ref entry, entwined.Reaches (.named ⟨2, "Outer"⟩) depth ref entry →
        ∀ id, ¬ entry.Has "missing" id := by
  have missing : entwined.member? (.named ⟨2, "Outer"⟩) "missing" = none := by
    decide +kernel
  exact ⟨by decide +kernel, missing, (member?_shallowest _ _ _).2.1.mp missing⟩

end Tables

end Relock
