import Mathlib.Data.List.Forall2
import Mathlib.Logic.Relation

/-!
# Computations that take steps

A computation on a state is understood by the steps it is made of: whatever one step keeps, the
whole computation keeps. What it returns may say something about the state it ends in, as a new
number does about the entity that has it.
-/

namespace Relock

variable {σ α β : Type}

/-- What every step keeps, a sequence of steps keeps. -/
theorem kept_of_steps {step : σ → σ → Prop} {holds : σ → Prop}
    (keeps : ∀ before after, step before after → holds before → holds after) {before after : σ}
    (steps : Relation.ReflTransGen step before after) (initial : holds before) : holds after := by
  induction steps with
  | refl => exact initial
  | tail _ taken ih => exact keeps _ _ taken ih

/-- Started in a state, a computation takes steps only, and of what it ends with `post` holds. -/
def Leads (step : σ → σ → Prop) (state : σ) (computation : StateM σ α)
    (post : α → σ → Prop := fun _ _ => True) : Prop :=
  Relation.ReflTransGen step state (computation.run state).2 ∧
    post (computation.run state).1 (computation.run state).2

namespace Leads

variable {step : σ → σ → Prop} {state : σ} {post : α → σ → Prop} {change : σ → σ}
  {computation : StateM σ α} {items : List α} {action : α → StateM σ PUnit}

theorem pure {result : α} (holds : post result state) : Leads step state (pure result) post :=
  ⟨.refl, holds⟩

/-- Reading the state takes no step. -/
theorem get_bind {next : σ → StateM σ α} (leads : Leads step state (next state) post) :
    Leads step state (get >>= next) post := leads

theorem modify_bind {next : Unit → StateM σ α} (taken : step state (change state))
    (leads : Leads step (change state) (next ()) post) :
    Leads step state (modify change >>= next) post :=
  ⟨.head taken leads.1, leads.2⟩

theorem modify {post : Unit → σ → Prop} (taken : step state (change state))
    (holds : post () (change state)) : Leads step state (modify change) post :=
  ⟨.single taken, holds⟩

theorem modifyGet {change : σ → α × σ} (taken : step state (change state).2)
    (holds : post (change state).1 (change state).2) : Leads step state (modifyGet change) post :=
  ⟨.single taken, holds⟩

theorem bind {middle : α → σ → Prop} {post : β → σ → Prop} {first : StateM σ α}
    {next : α → StateM σ β} (leads : Leads step state first middle)
    (continues : ∀ result reached, Relation.ReflTransGen step state reached →
      middle result reached → Leads step reached (next result) post) :
    Leads step state (first >>= next) post := by
  have rest := continues _ _ leads.1 leads.2
  exact ⟨leads.1.trans rest.1, rest.2⟩

section Consequences

variable (leads : Leads step state computation post)
include leads

/-- What follows from the result may use the steps that led to it. -/
theorem weaken {weaker : α → σ → Prop}
    (implies : ∀ result reached, Relation.ReflTransGen step state reached →
      post result reached → weaker result reached) : Leads step state computation weaker :=
  ⟨leads.1, implies _ _ leads.1 leads.2⟩

/-- The steps themselves are a consequence that a wider relation can keep. -/
theorem withSteps :
    Leads step state computation fun _ reached => Relation.ReflTransGen step state reached :=
  leads.weaken fun _ _ steps _ => steps

theorem mono {wider : σ → σ → Prop}
    (includes : ∀ before after, step before after → wider before after) :
    Leads wider state computation post :=
  ⟨Relation.ReflTransGen.mono includes _ _ leads.1, leads.2⟩

theorem discard : Leads step state (discard computation) :=
  ⟨leads.1, trivial⟩

end Consequences

/-! ## Loops

What one round does may depend on the steps that led to it. -/

theorem forM (each : ∀ item ∈ items, ∀ reached, Relation.ReflTransGen step state reached →
      Leads step reached (action item)) : Leads step state (items.forM action) := by
  induction items generalizing state with
  | nil => exact ⟨.refl, trivial⟩
  | cons item items ih =>
      rw [List.forall_mem_cons] at each
      refine (each.1 state .refl).bind fun _ reached steps _ => ?_
      exact ih fun other member later more => each.2 other member later (steps.trans more)

/-- A loop whose rounds need something of the state that earlier rounds leave alone. -/
theorem forM_of_ready (ready : α → σ → Prop)
    (kept : items.Pairwise fun first later => ∀ state, ready first state → ready later state →
      ready later ((action first).run state).2)
    (each : ∀ item ∈ items, ∀ state, ready item state → Leads step state (action item))
    (all : ∀ item ∈ items, ready item state) : Leads step state (items.forM action) := by
  induction items generalizing state with
  | nil => exact ⟨.refl, trivial⟩
  | cons item items ih =>
      obtain ⟨kept_first, kept_rest⟩ := List.pairwise_cons.mp kept
      have first := each item List.mem_cons_self state (all item List.mem_cons_self)
      have rest := ih kept_rest
        (fun other member => each other (List.mem_cons_of_mem item member))
        (fun other member => kept_first other member state (all item List.mem_cons_self)
          (all other (List.mem_cons_of_mem item member)))
      exact ⟨first.1.trans rest.1, trivial⟩

/-- A loop keeps what each round keeps of its result. -/
theorem foldlM {action : β → α → StateM σ β} {post : β → σ → Prop}
    (each : ∀ item ∈ items, ∀ result reached, Relation.ReflTransGen step state reached →
      post result reached → Leads step reached (action result item) post) {result : β}
    (holds : post result state) : Leads step state (items.foldlM action result) post := by
  induction items generalizing result state with
  | nil => exact ⟨.refl, holds⟩
  | cons item items ih =>
      rw [List.forall_mem_cons] at each
      refine (each.1 result state .refl holds).bind fun _ reached steps kept => ?_
      exact ih (fun other member result later more =>
        each.2 other member result later (steps.trans more)) kept

/-- What later steps keep holds of each item and its result in the end. -/
theorem mapM {items : List α} {action : α → StateM σ β} {post : α → β → σ → Prop}
    (stable : ∀ item result before after, step before after →
      post item result before → post item result after)
    (each : ∀ item ∈ items, ∀ reached, Relation.ReflTransGen step state reached →
      Leads step reached (action item) (post item)) :
    Leads step state (items.mapM action) fun results reached =>
      List.Forall₂ (fun item result => post item result reached) items results := by
  induction items generalizing state with
  | nil => exact ⟨.refl, .nil⟩
  | cons item items ih =>
      rw [List.forall_mem_cons] at each
      rw [List.mapM_cons]
      refine (each.1 state .refl).bind fun first reached steps holds => ?_
      have later := ih fun other member later more => each.2 other member later (steps.trans more)
      refine later.bind fun rest final more all => .pure ?_
      exact .cons (kept_of_steps (stable item first) more holds) all

theorem mapM_all {action : α → StateM σ β} {post : β → σ → Prop}
    (stable : ∀ result before after, step before after → post result before → post result after)
    (each : ∀ item ∈ items, ∀ reached, Relation.ReflTransGen step state reached →
      Leads step reached (action item) post) :
    Leads step state (items.mapM action) fun results reached =>
      ∀ result ∈ results, post result reached := by
  refine (Leads.mapM (fun _ => stable) each).weaken fun results reached _ all => ?_
  clear each
  induction all with
  | nil => simp
  | cons holds _ ih => simpa using ⟨holds, ih⟩

end Leads

/-- In whatever state it is started, a computation takes steps only. -/
def Always (step : σ → σ → Prop) (computation : StateM σ α) : Prop :=
  ∀ state, Leads step state computation

namespace Always

variable {step : σ → σ → Prop}

theorem pure (result : α) : Always step (pure result) := fun _ => .pure trivial

theorem get_bind {next : σ → StateM σ α} (always : ∀ state, Always step (next state)) :
    Always step (get >>= next) :=
  fun state => .get_bind (always state state)

theorem bind {computation : StateM σ α} {next : α → StateM σ β} (first : Always step computation)
    (second : ∀ result, Always step (next result)) : Always step (computation >>= next) :=
  fun state => (first state).bind fun result reached _ _ => second result reached

theorem modify {change : σ → σ} (taken : ∀ state, step state (change state)) :
    Always step (modify change) :=
  fun state => .modify (taken state) trivial

theorem modifyGet {change : σ → α × σ} (taken : ∀ state, step state (change state).2) :
    Always step (modifyGet change) :=
  fun state => .modifyGet (taken state) trivial

theorem forM {items : List α} {action : α → StateM σ PUnit}
    (each : ∀ item ∈ items, Always step (action item)) : Always step (items.forM action) :=
  fun _ => .forM fun item member reached _ => each item member reached

theorem mapM {items : List α} {action : α → StateM σ β}
    (each : ∀ item ∈ items, Always step (action item)) : Always step (items.mapM action) := by
  intro state
  have all := @Leads.mapM _ _ _ step state items action (fun _ _ _ => True)
    (fun _ _ _ _ _ _ => trivial) fun item member reached _ => each item member reached
  exact all.weaken fun _ _ _ _ => trivial

theorem foldlM {items : List α} {action : β → α → StateM σ β}
    (each : ∀ item ∈ items, ∀ result, Always step (action result item)) (result : β) :
    Always step (items.foldlM action result) :=
  fun _ => .foldlM (fun item member result state _ _ => each item member result state) trivial

end Always

/-- A loop in a loop is one loop. -/
theorem forM_flatMap (items : List α) (parts : α → List β) (action : β → StateM σ PUnit) :
    (items.flatMap parts).forM action = items.forM fun item => (parts item).forM action := by
  induction items with
  | nil => rfl
  | cons item items ih => simp_all [List.flatMap_cons]

end Relock
