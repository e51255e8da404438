import Mathlib.Data.List.Forall2
import Relock.Proofs.Renaming.Basic

/-!
# Resolution in lockstep

Two computations run alongside each other when they take states that are alike to states that are
alike, with results that correspond. What resolution finds out in matching tables is the same up to
the numbers.
-/

namespace Relock

/-! ## Two computations at once -/

/-- Started in states that are alike, two computations end in such states, with results that
correspond. -/
def Alongside {σ τ α β : Type} (alike : σ → τ → Prop) (left : StateM σ α) (right : StateM τ β)
    (post : α → β → Prop := fun _ _ => True) : Prop :=
  ∀ before other, alike before other →
    alike (left.run before).2 (right.run other).2 ∧ post (left.run before).1 (right.run other).1

namespace Alongside

variable {σ τ α β γ δ : Type} {alike : σ → τ → Prop} {post : α → β → Prop} {result : α} {other : β}
  {left : StateM σ α} {right : StateM τ β} {items : List α} {toOther : α → β}

theorem pure (holds : post result other) : Alongside alike (pure result) (pure other) post :=
  fun _ _ same => ⟨same, holds⟩

theorem bind {next : α → StateM σ γ} {nextRight : β → StateM τ δ} {goal : γ → δ → Prop}
    (first : Alongside alike left right post) (continues : ∀ result other, post result other →
      Alongside alike (next result) (nextRight other) goal) :
    Alongside alike (left >>= next) (right >>= nextRight) goal := by
  intro before other same
  obtain ⟨reached, holds⟩ := first before other same
  exact continues _ _ holds _ _ reached

/-- What is done after a look at the states may rest on what is seen there. -/
theorem get_bind {next : σ → StateM σ α} {nextRight : τ → StateM τ β}
    (continues : ∀ before other, alike before other →
      Alongside alike (next before) (nextRight other) post) :
    Alongside alike (get >>= next) (get >>= nextRight) post :=
  fun before other same => continues before other same before other same

theorem modify {change : σ → σ} {changeRight : τ → τ}
    (keeps : ∀ before other, alike before other → alike (change before) (changeRight other)) :
    Alongside alike (modify change) (modify changeRight) :=
  fun before other same => ⟨keeps before other same, trivial⟩

theorem modifyGet {change : σ → α × σ} {changeRight : τ → β × τ}
    (keeps : ∀ before other, alike before other →
      alike (change before).2 (changeRight other).2 ∧
        post (change before).1 (changeRight other).1) :
    Alongside alike (modifyGet change) (modifyGet changeRight) post :=
  fun before other same => keeps before other same

theorem weaken {weaker : α → β → Prop} (along : Alongside alike left right post)
    (implies : ∀ result other, post result other → weaker result other) :
    Alongside alike left right weaker :=
  fun before other same =>
    ⟨(along before other same).1, implies _ _ (along before other same).2⟩

theorem forM {others : List β} {corresponds : α → β → Prop}
    (pairs : List.Forall₂ corresponds items others) {left : α → StateM σ PUnit}
    {right : β → StateM τ PUnit} (each : ∀ item ∈ items, ∀ other, corresponds item other →
      Alongside alike (left item) (right other)) :
    Alongside alike (items.forM left) (others.forM right) := by
  induction pairs with
  | nil => exact fun _ _ same => ⟨same, trivial⟩
  | cons first rest ih =>
      rw [List.forall_mem_cons] at each
      exact (each.1 _ first).bind fun _ _ _ => ih each.2

/-- A loop over items and a loop over what they are mapped to. -/
theorem forM_map {left : α → StateM σ PUnit} {right : β → StateM τ PUnit}
    (each : ∀ item ∈ items, Alongside alike (left item) (right (toOther item))) :
    Alongside alike (items.forM left) ((items.map toOther).forM right) := by
  have pairs : List.Forall₂ (fun item other => other = toOther item) items (items.map toOther) :=
    List.forall₂_map_right_iff.mpr (List.forall₂_same.mpr fun _ _ => rfl)
  exact forM pairs fun item member other same => same ▸ each item member

theorem mapM {items : List α} {others : List β} {corresponds : α → β → Prop}
    (pairs : List.Forall₂ corresponds items others) {left : α → StateM σ γ} {right : β → StateM τ δ}
    {goal : γ → δ → Prop}
    (each : ∀ item ∈ items, ∀ other, corresponds item other →
      Alongside alike (left item) (right other) goal) :
    Alongside alike (items.mapM left) (others.mapM right) (List.Forall₂ goal) := by
  induction pairs with
  | nil => exact .pure .nil
  | cons first rest ih =>
      rw [List.forall_mem_cons] at each
      rw [List.mapM_cons, List.mapM_cons]
      refine (each.1 _ first).bind fun result other holds => ?_
      exact (ih each.2).bind fun results others all => .pure (.cons holds all)

theorem mapM_map {left : α → StateM σ γ} {right : β → StateM τ δ} {toResult : γ → δ}
    (each : ∀ item ∈ items, Alongside alike (left item) (right (toOther item))
      fun result other => other = toResult result) :
    Alongside alike (items.mapM left) ((items.map toOther).mapM right)
      fun results others => others = results.map toResult := by
  have pairs : List.Forall₂ (fun item other => other = toOther item) items (items.map toOther) :=
    List.forall₂_map_right_iff.mpr (List.forall₂_same.mpr fun _ _ => rfl)
  have all := mapM pairs fun item member other same => same ▸ each item member
  refine all.weaken fun results others aligned => ?_
  induction aligned with
  | nil => rfl
  | cons same _ ih => rw [same, ih, List.map_cons]

theorem foldlM_map {items : List γ} {toOther : γ → δ} {left : α → γ → StateM σ α}
    {right : β → δ → StateM τ β} (holds : post result other)
    (each : ∀ item ∈ items, ∀ result other, post result other →
      Alongside alike (left result item) (right other (toOther item)) post) :
    Alongside alike (items.foldlM left result) ((items.map toOther).foldlM right other) post := by
  induction items generalizing result other with
  | nil => exact .pure holds
  | cons item items ih =>
      rw [List.forall_mem_cons] at each
      exact (each.1 result other holds).bind fun _ _ holds => ih holds each.2

end Alongside

/-! ## Scopes -/

variable {moved : Renaming} {view : View}

/-- Two files see the same things, with new numbers. -/
structure FileScope.Matches (moved : Renaming) (left right : FileScope) : Prop where
  package : right.package = moved.package left.package
  imports : Scope.Renamed moved left.imports right.imports

namespace ScopeStack

/-- The open scopes declare the same names, with new numbers. -/
def Renamed (moved : Renaming) (left right : ScopeStack SymbolId) : Prop :=
  List.Forall₂ (Scope.Renamed moved) left.scopes right.scopes

variable {left right : ScopeStack SymbolId}

variable (renamed : Renamed moved left right)
include renamed

theorem Renamed.lookup (name : String) :
    right.lookup name = (left.lookup name).map moved.symbol := by
  obtain ⟨scopes⟩ := left
  obtain ⟨others⟩ := right
  have pairs : List.Forall₂ (Scope.Renamed moved) scopes others := renamed
  rw [ScopeStack.lookup, ScopeStack.lookup]
  clear renamed
  induction pairs with
  | nil => rfl
  | @cons scope other scopes others first rest ih =>
      simp only [List.findSome?_cons, first name]
      cases scope[name]? with
      | none => exact ih
      | some id => rfl

theorem Renamed.lookupLocal (name : String) :
    right.lookupLocal name = (left.lookupLocal name).map moved.symbol := by
  obtain ⟨scopes⟩ := left
  obtain ⟨others⟩ := right
  cases renamed with
  | nil => rfl
  | cons first rest => exact first name

theorem Renamed.push : Renamed moved left.push right.push :=
  .cons Scope.renamed_empty renamed

theorem Renamed.pop : Renamed moved left.pop right.pop := by
  obtain ⟨scopes⟩ := left
  obtain ⟨others⟩ := right
  cases renamed with
  | nil => exact .nil
  | cons first rest => exact rest

theorem Renamed.declare (name : String) (id : SymbolId) :
    Renamed moved (left.declare name id) (right.declare name (moved.symbol id)) := by
  obtain ⟨scopes⟩ := left
  obtain ⟨others⟩ := right
  cases renamed with
  | nil => exact .cons (Scope.renamed_empty.insert name id) .nil
  | cons first rest => exact .cons (first.insert name id) rest

end ScopeStack

/-! ## Written types -/

namespace Resolution

theorem resolveType_rename {left right : Tables} (same : left.Matches moved view right)
    (members : ∀ package name, view.member package name) {scope other : FileScope}
    (scopes : scope.Matches moved other) (type : TypeExpr) :
    resolveType other right type = (resolveType scope left type).rename moved := by
  have named_eq (found : Option SymbolId) :
      ((found.map moved.symbol).bind right.typeNamed?).getD .unknown =
        ((found.bind left.typeNamed?).getD .unknown).rename moved := by
    cases found with
    | none => rfl
    | some id =>
        simp only [Option.map_some, Option.bind_some, same.typeNamed?_eq]
        cases left.typeNamed? id <;> rfl
  induction type with
  | name name =>
      have own := same.lookup scope.package name (members _ _)
      have universal := same.lookup Predeclared.universal name (members _ _)
      rw [moved.universal] at universal
      rw [resolveType, resolveType, scopes.package, own, universal, ← Option.map_or]
      exact named_eq _
  | qualified package name =>
      have found : ((other.imports[package]?.bind right.importedPackage?).bind
          fun target => right.lookup target name) =
            (((scope.imports[package]?.bind left.importedPackage?).bind
              fun target => left.lookup target name)).map moved.symbol := by
        rw [scopes.imports package]
        cases scope.imports[package]? with
        | none => rfl
        | some id =>
            simp only [Option.map_some, Option.bind_some, same.importedPackage?_eq]
            cases left.importedPackage? id with
            | none => rfl
            | some target => exact same.lookup target name (members _ _)
      rw [resolveType, resolveType, found]
      exact named_eq _
  | pointer target ih =>
      rw [resolveType, resolveType, ih]
      cases resolveType scope left target <;> rfl
  | func => rfl
  | funcOf result ih => rw [resolveType, resolveType, ih, TypeRef.rename]
  | other => rfl

end Resolution

end Relock
