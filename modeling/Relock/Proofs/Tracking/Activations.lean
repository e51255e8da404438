import Mathlib.Data.List.Nodup
import Mathlib.Data.List.Perm.Basic
import Mathlib.Data.List.Perm.Subperm
import Relock.Lock.Analysis
import Relock.Proofs.Sample
import Relock.Proofs.Text.Decimal
import Relock.Proofs.Tracking.Ownership

/-!
# The activations of a declaration

A declaration is tracked first, then the closure literals noted in it, then those noted in these,
and so on. The rounds go through all closure literals of the declaration, each once and under a name
of its own. Every call that is not part of a deferred call is interpreted once, in the activation of
the innermost closure literal around it.
-/

namespace Relock

/-! ## Items and what stands in them -/

namespace Item

variable (owner : Option Closure)

theorem map_node_parts (item : Item) :
    (item.parts owner).map (fun part => part.node) =
      match item.node with
      | .closure literal => literal.stream
      | node => [node] := by
  obtain ⟨node, deferred⟩ := item
  cases node with
  | closure literal =>
      exact congrArg (Node.closure literal :: ·)
        (map_node_stmtParts literal.body.body (some literal))
  | _ => rfl

/-- The literals at any depth are those among the items and those that stand in them. -/
theorem literals_flatMap_parts (items : List Item) :
    Node.literals ((items.flatMap (Item.parts owner)).map fun part => part.node) =
      (literals items).flatMap fun literal => Node.literals literal.stream := by
  induction items with
  | nil => rfl
  | cons item items ih =>
      rw [List.flatMap_cons, List.map_append, Node.literals_append, ih, map_node_parts]
      obtain ⟨node, deferred⟩ := item
      cases node <;> rfl

/-- The calls to be interpreted at any depth are those among the items and those that stand in the
literals. -/
theorem duties_flatMap_parts (items : List Item) :
    ((items.flatMap (Item.parts owner)).filterMap Part.duty?).Perm
      ((items.filterMap call?).map (Prod.mk owner) ++
        (literals items).flatMap fun literal => literal.parts.filterMap Part.duty?) := by
  induction items with
  | nil => exact .refl _
  | cons item items ih =>
      rw [List.flatMap_cons, List.filterMap_append]
      obtain ⟨node, deferred⟩ := item
      cases node with
      | closure literal =>
          have inside : (Item.parts owner ⟨.closure literal, deferred⟩).filterMap Part.duty? =
              literal.parts.filterMap Part.duty? := rfl
          rw [inside]
          exact (ih.append_left _).trans (List.perm_append_comm_assoc _ _ _)
      | call call =>
          cases deferred with
          | true => exact ih
          | false => exact ih.cons (owner, call)
      | _ => exact ih

/-- A literal among the items is no longer than all of them together. -/
theorem length_stream_le {items : List Item} {literal : Closure}
    (member : literal ∈ literals items) :
    literal.stream.length ≤ (items.flatMap (Item.parts owner)).length := by
  obtain ⟨item, item_mem, node_eq⟩ := List.mem_map.mp (Node.mem_literals.mp member)
  obtain ⟨front, rest, rfl⟩ := List.append_of_mem item_mem
  have length_eq : literal.stream.length = (item.parts owner).length := by
    rw [← List.length_map (fun part : Part => part.node), map_node_parts, node_eq]
  rw [List.flatMap_append, List.flatMap_cons, length_eq]
  simp only [List.length_append]
  omega

end Item

theorem literals_stmtNodes (stmts : List Stmt) :
    Node.literals (stmtNodes stmts) =
      (Item.literals (stmtItems stmts)).flatMap fun literal => Node.literals literal.stream := by
  rw [← map_node_stmtParts stmts none, stmtParts_eq, Item.literals_flatMap_parts]

theorem length_stream_le_of_mem {stmts : List Stmt} {literal : Closure}
    (member : literal ∈ Item.literals (stmtItems stmts)) :
    literal.stream.length ≤ (stmtNodes stmts).length := by
  rw [← map_node_stmtParts stmts none, List.length_map, stmtParts_eq]
  exact Item.length_stream_le none member

namespace Subject

variable {subject : Subject}

/-! ## What an activation notes and interprets -/

theorem closures_track (function : String) (first : Node) (nodes : List Node) :
    (subject.track function (first :: nodes)).closures =
      numbered (closureStem function first) 0 (Item.literals (Around.scan {} nodes)) :=
  closures_foldl { state := .enter first.span } nodes

theorem map_call_encounters (function : String) (first : Node) (nodes : List Node) :
    (subject.encounters function (first :: nodes)).map Encounter.call =
      (Around.scan {} nodes).filterMap Item.call? :=
  map_call_encountersFrom { state := .enter first.span } nodes

section Closure

variable {literal : Closure} (nested : literal.body.nested = true)

include nested

theorem closures_track_literal (function : String) :
    (subject.track function literal.stream).closures =
      numbered (function ++ ".") 0 (Item.literals literal.items) := by
  rw [Closure.stream, closures_track, Block.scan_nodes nested]
  rfl

theorem map_call_encounters_literal (function : String) :
    (subject.encounters function literal.stream).map Encounter.call =
      literal.items.filterMap Item.call? := by
  rw [Closure.stream, map_call_encounters, Block.scan_nodes nested]
  rfl

end Closure

/-- Offsets tell the items of a well nested declaration. -/
theorem scan_decl {decl : FuncDecl} (nested : decl.nested = true) :
    ∃ nodes, decl.stream = .func decl :: nodes ∧ Around.scan {} nodes = decl.items := by
  refine ⟨_, rfl, ?_⟩
  unfold FuncDecl.nested at nested
  unfold FuncDecl.items
  cases body : decl.body with
  | none => rfl
  | some block =>
      rw [body] at nested
      exact Block.scan_nodes nested

/-! ## Rounds -/

theorem trackClosures_nil (depth : Nat) : subject.trackClosures depth [] = [] := by
  cases depth <;> rfl

theorem trackClosures_succ (depth : Nat) (pending : List PendingClosure) :
    subject.trackClosures (depth + 1) pending =
      (pending.map fun closure => (closure, subject.trackClosure closure)) ++
        subject.trackClosures depth
          (pending.flatMap fun closure => (subject.trackClosure closure).closures) := by
  cases pending with
  | nil => exact (trackClosures_nil depth).symm
  | cons closure pending =>
      rw [trackClosures]
      simp [List.flatMap_map]

/-- What is noted in well nested literals is well nested and shorter. -/
theorem nested_of_noted {pending : List PendingClosure} {inner : PendingClosure}
    (nested : ∀ closure ∈ pending, closure.literal.body.nested = true)
    (noted : inner ∈ pending.flatMap fun closure => (subject.trackClosure closure).closures) :
    inner.literal.body.nested = true ∧
      ∃ closure ∈ pending, inner.literal.stream.length < closure.literal.stream.length := by
  obtain ⟨closure, closure_mem, inner_mem⟩ := List.mem_flatMap.mp noted
  have closure_nested := nested closure closure_mem
  rw [trackClosure, closures_track_literal closure_nested] at inner_mem
  have literal_mem : inner.literal ∈ Item.literals closure.literal.items := by
    have mapped := List.mem_map_of_mem (f := PendingClosure.literal) inner_mem
    rwa [map_literal_numbered] at mapped
  refine ⟨nested_stmtItems closure.literal.body.body closure_nested _ literal_mem, closure,
    closure_mem, ?_⟩
  exact Nat.lt_succ_of_le (length_stream_le_of_mem literal_mem)

section Rounds

variable {α : Type} {gain : PendingClosure → List α} {total : Closure → List α}
  (unfolds : ∀ closure : PendingClosure, closure.literal.body.nested = true →
    (total closure.literal).Perm
      (gain closure ++ (Item.literals closure.literal.items).flatMap total))

include unfolds

/-- What all activations yield together is what the literals at the beginning hold in total. The
induction is on the rounds: a literal is longer than those noted in it. -/
theorem flatMap_trackClosures {depth : Nat} {pending : List PendingClosure}
    (nested : ∀ closure ∈ pending, closure.literal.body.nested = true)
    (short : ∀ closure ∈ pending, closure.literal.stream.length ≤ depth) :
    ((subject.trackClosures depth pending).flatMap fun run => gain run.1).Perm
      (pending.flatMap fun closure => total closure.literal) := by
  induction depth generalizing pending with
  | zero =>
      cases pending with
      | nil => exact .refl _
      | cons closure pending => cases short closure List.mem_cons_self
  | succ depth ih =>
      have noted_nested : ∀ inner ∈ pending.flatMap fun closure =>
          (subject.trackClosure closure).closures, inner.literal.body.nested = true :=
        fun inner noted => (nested_of_noted nested noted).1
      have noted_short : ∀ inner ∈ pending.flatMap fun closure =>
          (subject.trackClosure closure).closures, inner.literal.stream.length ≤ depth := by
        intro inner noted
        obtain ⟨-, closure, member, shorter⟩ := nested_of_noted nested noted
        exact Nat.le_of_lt_succ (Nat.lt_of_lt_of_le shorter (short closure member))
      have noted_total : (pending.flatMap fun closure =>
            (subject.trackClosure closure).closures).flatMap (fun inner => total inner.literal) =
          pending.flatMap fun closure => (Item.literals closure.literal.items).flatMap total := by
        rw [List.flatMap_assoc]
        refine List.flatMap_congr fun closure member => ?_
        rw [trackClosure, closures_track_literal (nested closure member), ← List.flatMap_map,
          map_literal_numbered]
      have later := ih noted_nested noted_short
      rw [noted_total] at later
      have joined := List.flatMap_append_perm pending gain fun closure =>
        (Item.literals closure.literal.items).flatMap total
      have unfolded := List.Perm.flatMap_left pending fun closure member =>
        (unfolds closure (nested closure member)).symm
      rw [trackClosures_succ, List.flatMap_append, List.flatMap_map]
      exact (later.append_left _).trans (joined.trans unfolded)

end Rounds

end Subject

/-! ## Names -/

theorem exists_number_of_mem_numbered {stem : String} {start : Nat} {literals : List Closure}
    {closure : PendingClosure} (member : closure ∈ numbered stem start literals) :
    ∃ number, start < number ∧ closure.name = stem ++ toString number := by
  induction literals generalizing start with
  | nil => cases member
  | cons literal literals ih =>
      rcases List.mem_cons.mp member with rfl | member
      · exact ⟨start + 1, Nat.lt_succ_self start, rfl⟩
      · obtain ⟨number, later, name_eq⟩ := ih member
        exact ⟨number, Nat.lt_of_succ_lt later, name_eq⟩

theorem nodup_name_numbered (stem : String) (start : Nat) (literals : List Closure) :
    ((numbered stem start literals).map PendingClosure.name).Nodup := by
  induction literals generalizing start with
  | nil => exact List.nodup_nil
  | cons literal literals ih =>
      refine List.nodup_cons.mpr ⟨?_, ih (start + 1)⟩
      intro again
      obtain ⟨closure, member, name_eq⟩ := List.mem_map.mp again
      obtain ⟨number, later, numbered_eq⟩ := exists_number_of_mem_numbered member
      have texts : stem ++ toString number = stem ++ toString (start + 1) :=
        numbered_eq.symm.trans name_eq
      have number_eq := Nat.repr_injective (String.append_right_inj stem |>.mp texts)
      exact Nat.ne_of_gt later number_eq

/-- The dots in a name. -/
def dots (name : String) : Nat := name.toList.count '.'

theorem dots_append (left right : String) : dots (left ++ right) = dots left + dots right := by
  rw [dots, String.toList_append, List.count_append]
  rfl

theorem dots_toString (number : Nat) : dots (toString number) = 0 := by
  refine List.count_eq_zero.mpr fun member => ?_
  cases isDigit_of_mem_toString member

namespace Subject

variable {subject : Subject}

/-- What is noted in a literal has the name of the literal, one dot and a number. -/
theorem exists_number_of_noted {closure inner : PendingClosure}
    (noted : inner ∈ (subject.trackClosure closure).closures) :
    ∃ number : Nat, inner.name = closure.name ++ "." ++ toString number := by
  rw [trackClosure, Closure.stream, closures_track] at noted
  obtain ⟨number, -, name_eq⟩ := exists_number_of_mem_numbered noted
  exact ⟨number, name_eq⟩

theorem nodup_name_noted {pending : List PendingClosure}
    (distinct : (pending.map PendingClosure.name).Nodup) :
    ((pending.flatMap fun closure => (subject.trackClosure closure).closures).map
      PendingClosure.name).Nodup := by
  rw [List.map_flatMap, List.nodup_flatMap]
  constructor
  · intro closure _
    rw [trackClosure, Closure.stream, closures_track]
    exact nodup_name_numbered _ _ _
  · refine (List.pairwise_map.mp distinct).imp ?_
    intro left right different name left_mem right_mem
    obtain ⟨left_inner, left_noted, left_name⟩ := List.mem_map.mp left_mem
    obtain ⟨right_inner, right_noted, right_name⟩ := List.mem_map.mp right_mem
    obtain ⟨left_number, left_eq⟩ := exists_number_of_noted left_noted
    obtain ⟨right_number, right_eq⟩ := exists_number_of_noted right_noted
    have texts := (left_eq.symm.trans left_name).trans (right_name.symm.trans right_eq)
    exact different (append_dot_toString_inj texts).1

/-- The names of all activations differ. Those of one round have the same number of dots, and those
of later rounds have more. -/
theorem nodup_name_trackClosures {depth level : Nat} {pending : List PendingClosure}
    (distinct : (pending.map PendingClosure.name).Nodup)
    (same_level : ∀ closure ∈ pending, dots closure.name = level) :
    ((subject.trackClosures depth pending).map fun run => run.1.name).Nodup ∧
      ∀ run ∈ subject.trackClosures depth pending, level ≤ dots run.1.name := by
  induction depth generalizing level pending with
  | zero => exact ⟨List.nodup_nil, by simp [trackClosures]⟩
  | succ depth ih =>
      have noted_level : ∀ inner ∈ pending.flatMap fun closure =>
          (subject.trackClosure closure).closures, dots inner.name = level + 1 := by
        intro inner noted
        obtain ⟨closure, member, inner_mem⟩ := List.mem_flatMap.mp noted
        obtain ⟨number, name_eq⟩ := exists_number_of_noted inner_mem
        rw [name_eq, dots_append, dots_append, dots_toString, same_level closure member]
        rfl
      obtain ⟨later_distinct, later_level⟩ := ih (nodup_name_noted distinct) noted_level
      rw [trackClosures_succ]
      constructor
      · rw [List.map_append, List.map_map, List.nodup_append]
        refine ⟨distinct, later_distinct, ?_⟩
        intro name name_mem other other_mem same
        obtain ⟨closure, closure_mem, rfl⟩ := List.mem_map.mp name_mem
        obtain ⟨run, run_mem, run_name⟩ := List.mem_map.mp other_mem
        have here := same_level closure closure_mem
        have there := later_level run run_mem
        have names : closure.name = run.1.name := same.trans run_name.symm
        rw [← names, here] at there
        exact Nat.not_succ_le_self level there
      · intro run member
        rcases List.mem_append.mp member with member | member
        · obtain ⟨closure, closure_mem, rfl⟩ := List.mem_map.mp member
          exact Nat.le_of_eq (same_level closure closure_mem).symm
        · exact Nat.le_of_succ_le (later_level run member)

/-! ## All activations of a declaration -/

variable (subject) in
/-- The calls that the activations of a declaration interpret, each with the closure literal whose
activation it is. -/
def interpreted (decl : FuncDecl) : List (Option Closure × Call) :=
  ((subject.encounters (subject.label decl) decl.stream).map fun encounter =>
    (none, encounter.call)) ++
    (subject.activations decl).2.flatMap fun run =>
      (subject.encounters run.1.name run.1.literal.stream).map fun encounter =>
        (some run.1.literal, encounter.call)

variable (subject) in
/-- The violations in a declaration and in the closures in it, with the calls that make them. -/
def findingsIn (decl : FuncDecl) : List Finding :=
  subject.findings (subject.label decl) decl.stream ++
    (subject.activations decl).2.flatMap fun run =>
      subject.findings run.1.name run.1.literal.stream

section Declaration

variable {decl : FuncDecl}

theorem closures_track_decl (nested : decl.nested = true) :
    (subject.track (subject.label decl) decl.stream).closures =
      numbered (subject.label decl ++ ".func") 0 (Item.literals decl.items) := by
  obtain ⟨nodes, stream_eq, scanned⟩ := scan_decl nested
  rw [stream_eq, closures_track, scanned]
  rfl

theorem map_call_encounters_decl (nested : decl.nested = true) :
    (subject.encounters (subject.label decl) decl.stream).map Encounter.call =
      decl.items.filterMap Item.call? := by
  obtain ⟨nodes, stream_eq, scanned⟩ := scan_decl nested
  rw [stream_eq, map_call_encounters, scanned]

/-- The literals among the items of a well nested declaration are well nested, and there are rounds
enough for what stands in them. -/
theorem nested_of_mem_items (nested : decl.nested = true) {literal : Closure}
    (member : literal ∈ Item.literals decl.items) :
    literal.body.nested = true ∧ literal.stream.length ≤ decl.stream.length := by
  constructor
  · unfold FuncDecl.nested at nested
    unfold FuncDecl.items at member
    cases body : decl.body with
    | none =>
        rw [body] at member
        cases member
    | some block =>
        rw [body] at nested member
        exact nested_stmtItems block.body nested literal member
  · have shorter := Item.length_stream_le none member
    rw [← FuncDecl.parts_eq] at shorter
    rw [FuncDecl.stream_eq, List.length_cons, List.length_map]
    exact Nat.le_succ_of_le shorter

/-- What the activations of the closures in a declaration yield together is what its literals hold
in total. -/
theorem flatMap_activations {α : Type} (gain : PendingClosure → List α) (total : Closure → List α)
    (unfolds : ∀ closure : PendingClosure, closure.literal.body.nested = true →
      (total closure.literal).Perm
        (gain closure ++ (Item.literals closure.literal.items).flatMap total))
    (nested : decl.nested = true) :
    ((subject.activations decl).2.flatMap fun run => gain run.1).Perm
      ((Item.literals decl.items).flatMap total) := by
  have pending : ∀ closure ∈ (subject.track (subject.label decl) decl.stream).closures,
      closure.literal ∈ Item.literals decl.items := by
    intro closure member
    rw [closures_track_decl nested] at member
    have mapped := List.mem_map_of_mem (f := PendingClosure.literal) member
    rwa [map_literal_numbered] at mapped
  have rounds := @flatMap_trackClosures subject α gain total unfolds decl.stream.length _
    (fun closure member => (nested_of_mem_items nested (pending closure member)).1)
    (fun closure member => (nested_of_mem_items nested (pending closure member)).2)
  rw [← List.flatMap_map PendingClosure.literal total, closures_track_decl nested,
    map_literal_numbered] at rounds
  rwa [activations, closures_track_decl nested]

/-- The activations go through all closure literals of a declaration, each once. -/
theorem literals_activations (nested : decl.nested = true) :
    ((subject.activations decl).2.map fun run => run.1.literal).Perm
      (Node.literals decl.stream) := by
  have unfolds : ∀ closure : PendingClosure, closure.literal.body.nested = true →
      (Node.literals closure.literal.stream).Perm ([closure.literal] ++
        (Item.literals closure.literal.items).flatMap fun literal =>
          Node.literals literal.stream) := by
    intro closure _
    exact .of_eq (congrArg (closure.literal :: ·) (literals_stmtNodes closure.literal.body.body))
  have all := @flatMap_activations subject decl Closure (fun closure => [closure.literal])
    (fun literal => Node.literals literal.stream) unfolds nested
  rw [← List.map_eq_flatMap, ← Item.literals_flatMap_parts none, ← decl.parts_eq] at all
  rw [decl.stream_eq]
  exact all

/-- Every call of a declaration that is not part of a deferred call is interpreted once, in the
activation of the innermost closure literal around it, and no other call is. -/
theorem interpreted_perm (nested : decl.nested = true) :
    (subject.interpreted decl).Perm (decl.parts.filterMap Part.duty?) := by
  have unfolds : ∀ closure : PendingClosure, closure.literal.body.nested = true →
      (closure.literal.parts.filterMap Part.duty?).Perm
        (((subject.encounters closure.name closure.literal.stream).map fun encounter =>
          (some closure.literal, encounter.call)) ++
          (Item.literals closure.literal.items).flatMap fun literal =>
            literal.parts.filterMap Part.duty?) := by
    intro closure nested
    have own : ((subject.encounters closure.name closure.literal.stream).map fun encounter =>
        (some closure.literal, encounter.call)) =
          (closure.literal.items.filterMap Item.call?).map (Prod.mk (some closure.literal)) := by
      rw [← @map_call_encounters_literal subject _ nested closure.name, List.map_map]
      rfl
    rw [own, Closure.parts, stmtParts_eq]
    exact Item.duties_flatMap_parts (some closure.literal) closure.literal.items
  have inner := @flatMap_activations subject decl (Option Closure × Call) (fun closure =>
      (subject.encounters closure.name closure.literal.stream).map fun encounter =>
        (some closure.literal, encounter.call))
    (fun literal => literal.parts.filterMap Part.duty?) unfolds nested
  have own : ((subject.encounters (subject.label decl) decl.stream).map fun encounter =>
      ((none : Option Closure), encounter.call)) =
        (decl.items.filterMap Item.call?).map (Prod.mk none) := by
    rw [← @map_call_encounters_decl subject decl nested, List.map_map]
    rfl
  rw [interpreted, own, decl.parts_eq]
  exact (inner.append_left _).trans (Item.duties_flatMap_parts none decl.items).symm

/-- The label of a declaration and the names of its closures differ. -/
theorem nodup_name_activations (nested : decl.nested = true) :
    (subject.label decl :: (subject.activations decl).2.map fun run => run.1.name).Nodup := by
  have noted_level : ∀ closure ∈ (subject.track (subject.label decl) decl.stream).closures,
      dots closure.name = dots (subject.label decl) + 1 := by
    intro closure member
    rw [closures_track_decl nested] at member
    obtain ⟨number, -, name_eq⟩ := exists_number_of_mem_numbered member
    rw [name_eq, dots_append, dots_append, dots_toString]
    rfl
  have noted_distinct : ((subject.track (subject.label decl) decl.stream).closures.map
      PendingClosure.name).Nodup := by
    rw [closures_track_decl nested]
    exact nodup_name_numbered _ _ _
  obtain ⟨distinct, level⟩ := nodup_name_trackClosures noted_distinct noted_level
  refine List.nodup_cons.mpr ⟨?_, distinct⟩
  intro again
  obtain ⟨run, member, name_eq⟩ := List.mem_map.mp again
  have deeper := level run member
  rw [name_eq] at deeper
  exact Nat.not_succ_le_self _ deeper

theorem report_of_mem_trackClosures {depth : Nat} {pending : List PendingClosure}
    {run : PendingClosure × ActivationReport} (member : run ∈ subject.trackClosures depth pending) :
    run.2 = subject.track run.1.name run.1.literal.stream := by
  induction depth generalizing pending with
  | zero => cases member
  | succ depth ih =>
      rw [trackClosures_succ] at member
      rcases List.mem_append.mp member with member | member
      · obtain ⟨closure, -, rfl⟩ := List.mem_map.mp member
        rfl
      · exact ih member

theorem map_violation_findingsIn (decl : FuncDecl) :
    (subject.findingsIn decl).map Finding.violation = subject.violationsIn decl := by
  have inner : ((subject.activations decl).2.flatMap fun run =>
      subject.findings run.1.name run.1.literal.stream).map Finding.violation =
        (subject.activations decl).2.flatMap fun run => run.2.violations := by
    rw [List.map_flatMap]
    refine List.flatMap_congr fun run member => ?_
    rw [map_violation_findings, report_of_mem_trackClosures member]
  rw [findingsIn, List.map_append, map_violation_findings, inner]
  rfl

/-- The calls that make violations are among those that are interpreted. -/
theorem map_call_findingsIn_sublist (decl : FuncDecl) :
    ((subject.findingsIn decl).map Finding.call).Sublist
      ((subject.interpreted decl).map Prod.snd) := by
  have own : ∀ (function : String) (owner : Option Closure) (nodes : List Node),
      ((subject.findings function nodes).map Finding.call).Sublist
        (((subject.encounters function nodes).map fun encounter =>
          (owner, encounter.call)).map Prod.snd) := by
    intro function owner nodes
    rw [List.map_map]
    exact map_call_findings_sublist nodes
  rw [findingsIn, interpreted, List.map_append, List.map_append, List.map_flatMap,
    List.map_flatMap]
  refine (own _ none _).append ?_
  induction (subject.activations decl).2 with
  | nil => exact .slnil
  | cons run runs ih =>
      rw [List.flatMap_cons, List.flatMap_cons]
      exact (own _ _ _).append ih

theorem map_snd_duties_sublist (parts : List Part) :
    ((parts.filterMap Part.duty?).map Prod.snd).Sublist
      (Node.sites (parts.map fun part => part.node)) := by
  induction parts with
  | nil => exact .slnil
  | cons part parts ih =>
      obtain ⟨⟨node, deferred⟩, owner⟩ := part
      cases node with
      | call call =>
          cases deferred with
          | true => exact ih.cons call
          | false => exact ih.cons_cons call
      | _ => exact ih

/-- The activations of a well nested declaration go through its closure literals, each once and
under names that differ. Every call is interpreted once, in the activation of the innermost closure
literal around it, unless it is part of a deferred call there, and is then not interpreted at all.
So no call is the site of two violations. The calls that are listed as interpreted are those whose
visits interpret them. -/
theorem activations_interpret_calls_once (subject : Subject) {decl : FuncDecl}
    (nested : decl.nested = true) :
    ((subject.activations decl).2.map fun run => run.1.literal).Perm (Node.literals decl.stream) ∧
    (subject.label decl :: (subject.activations decl).2.map fun run => run.1.name).Nodup ∧
    (decl.stream = .func decl :: decl.parts.map fun part => part.node) ∧
    (subject.interpreted decl).Perm (decl.parts.filterMap Part.duty?) ∧
    (subject.findingsIn decl).map Finding.violation = subject.violationsIn decl ∧
    (∀ finding ∈ subject.findingsIn decl,
      finding.violation.location = subject.location finding.call) ∧
    ((subject.findingsIn decl).map Finding.call).Subperm (Node.sites decl.stream) ∧
    (((Node.sites decl.stream).map Call.id).Nodup →
      ((subject.findingsIn decl).map fun finding => finding.call.id).Nodup) ∧
    subject.InterpretsMetCalls := by
  have once := @interpreted_perm subject decl nested
  have sites_eq : Node.sites decl.stream = Node.sites (decl.parts.map fun part => part.node) := by
    rw [decl.stream_eq]
    rfl
  have sites : ((subject.findingsIn decl).map Finding.call).Subperm (Node.sites decl.stream) := by
    have interpreted_sites : ((subject.interpreted decl).map Prod.snd).Subperm
        (Node.sites decl.stream) := by
      rw [sites_eq]
      exact ⟨_, (once.map Prod.snd).symm, map_snd_duties_sublist decl.parts⟩
    exact (map_call_findingsIn_sublist decl).subperm.trans interpreted_sites
  refine ⟨literals_activations nested, nodup_name_activations nested, decl.stream_eq, once,
    map_violation_findingsIn decl, ?_, sites, ?_, subject.interpretsMetCalls⟩
  · intro finding member
    rcases List.mem_append.mp member with member | member
    · exact location_of_mem_findings member
    · obtain ⟨run, -, member⟩ := List.mem_flatMap.mp member
      exact location_of_mem_findings member
  · intro distinct
    obtain ⟨ordered, perm, sublist⟩ := sites
    have ordered_distinct := distinct.sublist (sublist.map Call.id)
    have ids := (perm.map Call.id).nodup_iff.mp ordered_distinct
    rwa [List.map_map] at ids

end Declaration

section Layers

/-- The literal `func() { a.mu.RLock() }` with the given range, whose call has the given number. -/
def lockingLiteral (index : Nat) (span : Span) : Expr :=
  .literal ⟨0, index⟩ [] none [Sample.statement (Sample.lockCall (index + 5) "a" "RLock")] span span

/-- A function that defers the call of a literal, in which another literal is called and the lock
acquired, with a call as the argument. Then it acquires the lock, and it returns a literal. -/
def layered : FuncDecl :=
  ⟨⟨0, 2⟩, Sample.name 3 "F", none, [⟨[Sample.name 4 "a"], .pointer (.name "S"), false⟩], none,
    some ⟨[.defer ⟨0, 100⟩
        (.literal ⟨0, 101⟩ [] none
          [.expr (.call ⟨0, 110⟩ (lockingLiteral 111 (between 111 190)) [] (between 111 195)),
            Sample.statement (Sample.lockCall 200 "a" "RLock")]
          (between 101 300) (between 101 300))
        [.call ⟨0, 310⟩ (.ident (Sample.name 311 "g")) [] (between 310 320)]
        (between 101 390) (between 100 400),
      Sample.statement (Sample.lockCall 410 "a" "RLock"),
      .return [lockingLiteral 510 (between 510 590)] (between 500 600)], between 50 700⟩,
    between 0 700⟩

/-- The program of that function. -/
def layering : Subject := .ofProgram (Sample.program [layered]) {}

/-- Of the seven calls the deferred one and its argument are not interpreted, and each of the others
is so once. -/
theorem layered_interpreted :
    layered.nested = true ∧
    ((layering.activations layered).2.map fun run => run.1.literal).Perm
      (Node.literals layered.stream) ∧
    (layering.activations layered).2.map (fun run => run.1.name) =
      ["F.func1", "F.func2", "F.func1.1"] ∧
    (layering.interpreted layered).Perm (layered.parts.filterMap Part.duty?) ∧
    (layered.parts.filterMap Part.duty?).map
        (fun duty => (duty.1.map fun literal => literal.id.index, duty.2.id.index)) =
      [(some 101, 110), (some 111, 116), (some 101, 200), (none, 410), (some 510, 515)] ∧
    (Node.sites layered.stream).map (fun call => call.id.index) =
      [100, 110, 116, 200, 310, 410, 515] := by
  have nested : layered.nested = true := by decide +kernel
  have once := activations_interpret_calls_once layering nested
  exact ⟨nested, once.1, by decide +kernel, once.2.2.2.1, by decide +kernel, by decide +kernel⟩

end Layers

end Subject

end Relock
