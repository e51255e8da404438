import Relock.Proofs.Tracking.Tree

/-!
# What stands below a node

In the stream of a body each construct comes before its parts, so what stands below a node in the
syntax tree are the nodes right after it, up to some number. Here each node is listed together with
that number. The ranges of a stream are delimited if offsets tell the same: of the nodes after a
closure literal, a deferred call or a return, those below it are the ones that begin before its end.
-/

namespace Relock

/-- A node of a stream, and how many nodes stand below it in the syntax tree. These are the next
ones in the stream. -/
structure Entry where
  node : Node
  below : Nat

namespace Entry

/-- A node above its parts. -/
def above (node : Node) (parts : List Entry) : List Entry := ⟨node, parts.length⟩ :: parts

end Entry

mutual

/-- The entries of an expression. -/
def Expr.entries : Expr → List Entry
  | .ident _ => []
  | .selector _ base _ _ => base.entries
  | .call id callee args span =>
      Entry.above (.call ⟨id, callee, args, span⟩) (callee.entries ++ exprEntries args)
  | .literal id params result body bodySpan span =>
      Entry.above (.closure ⟨id, params, result, ⟨body, bodySpan⟩, span⟩) (stmtEntries body)
  | .paren inner _ => inner.entries
  | .unary _ operand _ => operand.entries
  | .composite _ elements _ => exprEntries elements
  | .other _ parts _ => exprEntries parts

/-- The entries of expressions, one after the other. -/
def exprEntries : List Expr → List Entry
  | [] => []
  | expr :: exprs => expr.entries ++ exprEntries exprs

/-- The entries of a statement. -/
def Stmt.entries : Stmt → List Entry
  | .expr expr => expr.entries
  | .defer id callee args callSpan span =>
      let call : Call := ⟨id, callee, args, callSpan⟩
      Entry.above (.defer call span) (Entry.above (.call call) (callee.entries ++ exprEntries args))
  | .go id callee args callSpan _ =>
      Entry.above (.call ⟨id, callee, args, callSpan⟩) (callee.entries ++ exprEntries args)
  | .return results span => Entry.above (.return span) (exprEntries results)
  | .assign _ targets values _ _ => exprEntries targets ++ exprEntries values
  | .var _ _ _ values _ => exprEntries values
  | .block body _ => stmtEntries body
  | .compound _ parts _ => stmtEntries parts

/-- The entries of statements, one after the other. -/
def stmtEntries : List Stmt → List Entry
  | [] => []
  | stmt :: stmts => stmt.entries ++ stmtEntries stmts

end

theorem exprEntries_eq (exprs : List Expr) : exprEntries exprs = exprs.flatMap Expr.entries := by
  induction exprs with
  | nil => rfl
  | cons expr exprs ih => rw [exprEntries, ih, List.flatMap_cons]

theorem stmtEntries_eq (stmts : List Stmt) : stmtEntries stmts = stmts.flatMap Stmt.entries := by
  induction stmts with
  | nil => rfl
  | cons stmt stmts ih => rw [stmtEntries, ih, List.flatMap_cons]

namespace FuncDecl

/-- The entries of the stream of a declaration. -/
def entries (decl : FuncDecl) : List Entry :=
  Entry.above (.func decl) (match decl.body with
    | some block => stmtEntries block.body
    | none => [])

end FuncDecl

namespace Closure

/-- The entries of the stream of a closure literal. -/
def entries (literal : Closure) : List Entry :=
  Entry.above (.closure literal) (stmtEntries literal.body.body)

end Closure

namespace Decl

/-- The entries of a declaration. -/
def entries : Decl → List Entry
  | func decl => decl.entries
  | var spec => exprEntries spec.values
  | type _ => []

end Decl

mutual

theorem Expr.map_node_entries : ∀ expr : Expr, expr.entries.map Entry.node = expr.nodes
  | .ident _ => rfl
  | .selector _ base _ _ => base.map_node_entries
  | .call _ callee args _ => by
      rw [Expr.entries, Expr.nodes, Entry.above, List.map_cons, List.map_append,
        callee.map_node_entries, map_node_exprEntries args]
  | .literal _ _ _ body _ _ => by
      rw [Expr.entries, Expr.nodes, Entry.above, List.map_cons, map_node_stmtEntries body]
  | .paren inner _ => inner.map_node_entries
  | .unary _ operand _ => operand.map_node_entries
  | .composite _ elements _ => map_node_exprEntries elements
  | .other _ parts _ => map_node_exprEntries parts

theorem map_node_exprEntries : ∀ exprs : List Expr,
    (exprEntries exprs).map Entry.node = exprNodes exprs
  | [] => rfl
  | expr :: exprs => by
      rw [exprEntries, exprNodes, List.map_append, expr.map_node_entries,
        map_node_exprEntries exprs]

theorem Stmt.map_node_entries : ∀ stmt : Stmt, stmt.entries.map Entry.node = stmt.nodes
  | .expr expr => expr.map_node_entries
  | .defer _ callee args _ _ => by
      rw [Stmt.entries, Stmt.nodes, Entry.above, Entry.above, List.map_cons, List.map_cons,
        List.map_append, callee.map_node_entries, map_node_exprEntries args]
  | .go _ callee args _ _ => by
      rw [Stmt.entries, Stmt.nodes, Entry.above, List.map_cons, List.map_append,
        callee.map_node_entries, map_node_exprEntries args]
  | .return results _ => by
      rw [Stmt.entries, Stmt.nodes, Entry.above, List.map_cons, map_node_exprEntries results]
  | .assign _ targets values _ _ => by
      rw [Stmt.entries, Stmt.nodes, List.map_append, map_node_exprEntries targets,
        map_node_exprEntries values]
  | .var _ _ _ values _ => map_node_exprEntries values
  | .block body _ => map_node_stmtEntries body
  | .compound _ parts _ => map_node_stmtEntries parts

/-- The entries of statements are their nodes, in the same order. -/
theorem map_node_stmtEntries : ∀ stmts : List Stmt,
    (stmtEntries stmts).map Entry.node = stmtNodes stmts
  | [] => rfl
  | stmt :: stmts => by
      rw [stmtEntries, stmtNodes, List.map_append, stmt.map_node_entries,
        map_node_stmtEntries stmts]

end

theorem FuncDecl.map_node_entries (decl : FuncDecl) :
    decl.entries.map Entry.node = decl.stream := by
  rw [entries, stream, Entry.above, List.map_cons]
  cases decl.body with
  | none => rfl
  | some block => exact congrArg _ (map_node_stmtEntries block.body)

theorem Closure.map_node_entries (literal : Closure) :
    literal.entries.map Entry.node = literal.stream := by
  rw [entries, stream, Entry.above, List.map_cons, map_node_stmtEntries, Block.nodes]

theorem Decl.map_node_entries (decl : Decl) : decl.entries.map Entry.node = decl.nodes := by
  cases decl with
  | func decl => exact decl.map_node_entries
  | var spec => exact map_node_exprEntries spec.values
  | type spec => rfl

/-! ## Delimited ranges -/

namespace Node

/-- The construct is one whose parts are told by offsets. -/
def isExtent : Node → Bool
  | closure _ | defer _ _ | .return _ => true
  | func _ | call _ => false

end Node

namespace Entry

/-- Of the entries that follow, those below begin before the end of the construct, and the other
ones do not. -/
structure Delimits (entry : Entry) (rest : List Entry) : Prop where
  le : entry.below ≤ rest.length
  inside : entry.node.isExtent = true →
    ∀ other ∈ rest.take entry.below, other.node.span.startsWithin entry.node.span = true
  past : entry.node.isExtent = true →
    ∀ other ∈ rest.drop entry.below, other.node.span.startsWithin entry.node.span = false

/-- Each entry of a stream delimits those that follow it. -/
def Delimited : List Entry → Prop
  | [] => True
  | entry :: rest => entry.Delimits rest ∧ Delimited rest

variable {entry : Entry} {left right rest : List Entry}

theorem Delimits.append (delimits : entry.Delimits left)
    (past : entry.node.isExtent = true →
      ∀ other ∈ right, other.node.span.startsWithin entry.node.span = false) :
    entry.Delimits (left ++ right) := by
  have le := delimits.le
  constructor
  · rw [List.length_append]
    omega
  · rw [List.take_append_of_le_length le]
    exact delimits.inside
  · intro extent other member
    rw [List.drop_append_of_le_length le] at member
    rcases List.mem_append.mp member with member | member
    · exact delimits.past extent other member
    · exact past extent other member

theorem Delimited.append (first : Delimited left) (second : Delimited right)
    (past : ∀ entry ∈ left, entry.node.isExtent = true →
      ∀ other ∈ right, other.node.span.startsWithin entry.node.span = false) :
    Delimited (left ++ right) := by
  induction left with
  | nil => exact second
  | cons entry left ih =>
      refine ⟨first.1.append (past entry List.mem_cons_self), ih first.2 ?_⟩
      exact fun other member => past other (List.mem_cons_of_mem entry member)

theorem Delimited.above {node : Node} (delimited : Delimited rest)
    (inside : node.isExtent = true →
      ∀ other ∈ rest, other.node.span.startsWithin node.span = true) :
    Delimited (Entry.above node rest) := by
  refine ⟨⟨Nat.le_refl _, fun extent other member => ?_, fun _ other member => ?_⟩, delimited⟩
  · exact inside extent other (List.mem_of_mem_take member)
  · simp at member

theorem Delimited.of_append (delimited : Delimited (left ++ right)) : Delimited right := by
  induction left with
  | nil => exact delimited
  | cons entry left ih => exact ih delimited.2

theorem Delimits.encloses {node : Node} {parts later : List Entry}
    (delimits : Delimits ⟨node, parts.length⟩ (parts ++ later)) (extent : node.isExtent = true) :
    node.span.encloses (parts.map Entry.node) (later.map Entry.node) = true := by
  have inside := delimits.inside extent
  have past := delimits.past extent
  rw [List.take_left] at inside
  rw [List.drop_left] at past
  simpa [Span.encloses] using ⟨inside, past⟩

/-- In a delimited stream the nodes below a construct are those that begin before its end. -/
theorem Delimited.below_iff (delimited : Delimited rest) {first later : Nat} {outer inner : Entry}
    (outer_eq : rest[first]? = some outer) (inner_eq : rest[later]? = some inner)
    (order : first < later) (extent : outer.node.isExtent = true) :
    later ≤ first + outer.below ↔ inner.node.span.startByte < outer.node.span.endByte := by
  induction rest generalizing first later with
  | nil => simp at outer_eq
  | cons entry rest ih =>
      obtain ⟨position, rfl⟩ := Nat.exists_eq_add_of_lt order
      rw [List.getElem?_cons_succ] at inner_eq
      cases first with
      | succ first =>
          rw [List.getElem?_cons_succ] at outer_eq
          have shifted : rest[first + position + 1]? = some inner := by
            rw [← inner_eq]
            congr 1
            omega
          rw [← ih delimited.2 outer_eq shifted (by omega)]
          omega
      | zero =>
          rw [List.getElem?_cons_zero, Option.some.injEq] at outer_eq
          subst outer_eq
          rw [Nat.zero_add] at inner_eq
          have within_iff : inner.node.span.startsWithin entry.node.span = true ↔
              inner.node.span.startByte < entry.node.span.endByte := by
            simp [Span.startsWithin]
          rw [← within_iff]
          by_cases close : position < entry.below
          · have member : inner ∈ rest.take entry.below := by
              apply List.mem_of_getElem? (i := position)
              rw [List.getElem?_take_of_lt close, inner_eq]
            have within := delimited.1.inside extent inner member
            exact iff_of_true (by omega) within
          · have member : inner ∈ rest.drop entry.below := by
              apply List.mem_of_getElem? (i := position - entry.below)
              rw [List.getElem?_drop, ← inner_eq]
              congr 1
              omega
            have past := delimited.1.past extent inner member
            exact iff_of_false (by omega) (by simp [past])

/-- Offsets tell the order of a stream: it goes forward in the source. And they tell its nesting: of
the nodes after a closure literal, a deferred call or a return, those below it in the syntax tree
are the ones that begin before its end. -/
structure ToldByOffsets (entries : List Entry) : Prop where
  forward : entries.Pairwise fun left right => left.node.span.startByte ≤ right.node.span.startByte
  below_iff : ∀ (first later : Nat) (outer inner : Entry), entries[first]? = some outer →
    entries[later]? = some inner → first < later → outer.node.isExtent = true →
    (later ≤ first + outer.below ↔ inner.node.span.startByte < outer.node.span.endByte)

end Entry

/-! ## Entries in a range -/

theorem Span.contains_iff {outer inner : Span} :
    outer.contains inner = true ↔
      outer.startByte ≤ inner.startByte ∧ inner.endByte ≤ outer.endByte := by
  simp [contains]

namespace Entry

/-- The offsets of a stream go forward. -/
def Forward (entries : List Entry) : Prop :=
  entries.Pairwise fun left right => left.node.span.startByte ≤ right.node.span.startByte

/-- The first entries end before the other ones begin. -/
def Apart (left right : List Entry) : Prop :=
  ∀ first ∈ left, ∀ later ∈ right, first.node.span.endByte ≤ later.node.span.startByte

/-- Offsets tell the order and the nesting of a stream. -/
structure Legible (entries : List Entry) : Prop where
  forward : Forward entries
  delimited : Delimited entries

/-- Offsets tell the order and the nesting of a stream, and of the stream of every closure literal
in it. -/
structure LegibleThroughout (entries : List Entry) : Prop extends Legible entries where
  closures : ∀ entry ∈ entries, ∀ literal, entry.node = .closure literal → Legible literal.entries

theorem Legible.toldByOffsets {entries : List Entry} (legible : Legible entries) :
    ToldByOffsets entries where
  forward := legible.forward
  below_iff _ _ _ _ outer_eq inner_eq order extent :=
    legible.delimited.below_iff outer_eq inner_eq order extent

/-- Legible entries within a range, none of them empty. -/
structure Fits (span : Span) (entries : List Entry) : Prop extends LegibleThroughout entries where
  within : ∀ entry ∈ entries, span.contains entry.node.span = true
  solid : ∀ entry ∈ entries, entry.node.span.startByte < entry.node.span.endByte

theorem LegibleThroughout.above (node : Node) {parts : List Entry}
    (legible : LegibleThroughout parts)
    (starts : ∀ entry ∈ parts, node.span.startByte ≤ entry.node.span.startByte)
    (inside : node.isExtent = true →
      ∀ entry ∈ parts, entry.node.span.startsWithin node.span = true)
    (own : ∀ literal, node = .closure literal → literal.entries = Entry.above node parts) :
    LegibleThroughout (Entry.above node parts) := by
  have whole : Legible (Entry.above node parts) :=
    ⟨List.pairwise_cons.mpr ⟨starts, legible.forward⟩, legible.delimited.above inside⟩
  refine ⟨whole, List.forall_mem_cons.mpr ⟨fun literal same => ?_, legible.closures⟩⟩
  rw [own literal same]
  exact whole

namespace Fits

variable {outer inner : Span} {left right entries : List Entry}

theorem nil (span : Span) : Fits span [] :=
  ⟨⟨⟨.nil, trivial⟩, by simp⟩, by simp, by simp⟩

theorem mono (fits : Fits inner entries) (covers : outer.contains inner = true) :
    Fits outer entries :=
  { fits with within := fun entry member => Span.contains_trans covers (fits.within entry member) }

theorem append (first : Fits outer left) (second : Fits outer right) (apart : Apart left right) :
    Fits outer (left ++ right) where
  within entry member := (List.mem_append.mp member).elim (first.within entry) (second.within entry)
  solid entry member := (List.mem_append.mp member).elim (first.solid entry) (second.solid entry)
  forward := by
    refine List.pairwise_append.mpr ⟨first.forward, second.forward, ?_⟩
    intro before before_mem after after_mem
    have nonempty := first.solid before before_mem
    have order := apart before before_mem after after_mem
    omega
  delimited := by
    refine first.delimited.append second.delimited fun before before_mem _ after after_mem => ?_
    have order := apart before before_mem after after_mem
    simpa [Span.startsWithin] using order
  closures entry member :=
    (List.mem_append.mp member).elim (first.closures entry) (second.closures entry)

theorem above (node : Node) {parts : List Entry} (fits : Fits node.span parts)
    (solid : node.span.startByte < node.span.endByte)
    (own : ∀ literal, node = .closure literal → literal.entries = Entry.above node parts) :
    Fits node.span (Entry.above node parts) where
  toLegibleThroughout := by
    refine fits.toLegibleThroughout.above node ?_ ?_ own
    · exact fun entry member => (Span.contains_iff.mp (fits.within entry member)).1
    · intro _ entry member
      have nonempty := fits.solid entry member
      have within := (Span.contains_iff.mp (fits.within entry member)).2
      simp only [Span.startsWithin, decide_eq_true_eq]
      omega
  within := List.forall_mem_cons.mpr ⟨node.span.contains_refl, fits.within⟩
  solid := List.forall_mem_cons.mpr ⟨solid, fits.solid⟩

end Fits

end Entry

theorem FuncDecl.legible_entries (decl : FuncDecl)
    (fits : ∀ block ∈ decl.body, Entry.Fits decl.span (stmtEntries block.body)) :
    Entry.LegibleThroughout decl.entries := by
  have close {parts : List Entry} (fits : Entry.Fits decl.span parts) :
      Entry.LegibleThroughout (Entry.above (.func decl) parts) := by
    refine fits.toLegibleThroughout.above (.func decl) (fun entry member => ?_) nofun nofun
    exact (Span.contains_iff.mp (fits.within entry member)).1
  unfold entries
  cases found : decl.body with
  | none => exact close (.nil _)
  | some block => exact close (fits block found)

/-- Offsets tell the order and the nesting of the stream of a function and of every closure literal
in a declaration. -/
structure Decl.Legible (decl : Decl) : Prop where
  function : ∀ func, decl = .func func → Entry.Legible func.entries
  closures : ∀ entry ∈ decl.entries, ∀ literal, entry.node = .closure literal →
    Entry.Legible literal.entries

/-! ## Well nested ranges

In a delimited stream ranges are well nested, also in the sense of the recursion on the syntax tree.
-/

theorem call_nested_of_delimited {callee : Expr} {args : List Expr} {later : List Entry}
    (callee_nested : ∀ later : List Entry, Entry.Delimited (callee.entries ++ later) →
      callee.nested (later.map Entry.node) = true)
    (args_nested : ∀ later : List Entry, Entry.Delimited (exprEntries args ++ later) →
      exprsNested (later.map Entry.node) args = true)
    (delimited : Entry.Delimited (callee.entries ++ exprEntries args ++ later)) :
    (callee.nested (exprNodes args ++ later.map Entry.node) &&
      exprsNested (later.map Entry.node) args) = true := by
  rw [List.append_assoc] at delimited
  have before := callee_nested (exprEntries args ++ later) delimited
  rw [List.map_append, map_node_exprEntries] at before
  rw [Bool.and_eq_true]
  exact ⟨before, args_nested later delimited.of_append⟩

mutual

theorem Expr.nested_of_delimited : ∀ (expr : Expr) (later : List Entry),
    Entry.Delimited (expr.entries ++ later) → expr.nested (later.map Entry.node) = true
  | .ident _, _, _ => rfl
  | .selector _ base _ _, later, delimited => base.nested_of_delimited later delimited
  | .call _ callee args _, _, delimited =>
      call_nested_of_delimited callee.nested_of_delimited (exprs_nested_of_delimited args)
        delimited.2
  | .literal _ _ _ body _ _, later, delimited => by
      have own := delimited.1.encloses rfl
      rw [map_node_stmtEntries] at own
      rw [Expr.nested, Bool.and_eq_true]
      exact ⟨own, stmts_nested_of_delimited body later delimited.2⟩
  | .paren inner _, later, delimited => inner.nested_of_delimited later delimited
  | .unary _ operand _, later, delimited => operand.nested_of_delimited later delimited
  | .composite _ elements _, later, delimited => exprs_nested_of_delimited elements later delimited
  | .other _ parts _, later, delimited => exprs_nested_of_delimited parts later delimited

theorem exprs_nested_of_delimited : ∀ (exprs : List Expr) (later : List Entry),
    Entry.Delimited (exprEntries exprs ++ later) →
      exprsNested (later.map Entry.node) exprs = true
  | [], _, _ => rfl
  | expr :: exprs, _, delimited =>
      call_nested_of_delimited expr.nested_of_delimited (exprs_nested_of_delimited exprs) delimited

theorem Stmt.nested_of_delimited : ∀ (stmt : Stmt) (later : List Entry),
    Entry.Delimited (stmt.entries ++ later) → stmt.nested (later.map Entry.node) = true
  | .expr expr, later, delimited => expr.nested_of_delimited later delimited
  | .defer _ callee args _ _, later, delimited => by
      have own := delimited.1.encloses rfl
      simp only [Entry.above, List.map_cons, List.map_append, callee.map_node_entries,
        map_node_exprEntries] at own
      rw [Stmt.nested, Bool.and_eq_true]
      exact ⟨own, call_nested_of_delimited callee.nested_of_delimited
        (exprs_nested_of_delimited args) delimited.2.2⟩
  | .go _ callee args _ _, _, delimited =>
      call_nested_of_delimited callee.nested_of_delimited (exprs_nested_of_delimited args)
        delimited.2
  | .return results _, later, delimited => by
      have own := delimited.1.encloses rfl
      rw [map_node_exprEntries] at own
      rw [Stmt.nested, Bool.and_eq_true]
      exact ⟨own, exprs_nested_of_delimited results later delimited.2⟩
  | .assign _ targets values _ _, later, delimited => by
      rw [Stmt.entries, List.append_assoc] at delimited
      have targets_nested :=
        exprs_nested_of_delimited targets (exprEntries values ++ later) delimited
      rw [List.map_append, map_node_exprEntries] at targets_nested
      rw [Stmt.nested, Bool.and_eq_true]
      exact ⟨targets_nested, exprs_nested_of_delimited values later delimited.of_append⟩
  | .var _ _ _ values _, later, delimited => exprs_nested_of_delimited values later delimited
  | .block body _, later, delimited => stmts_nested_of_delimited body later delimited
  | .compound _ parts _, later, delimited => stmts_nested_of_delimited parts later delimited

theorem stmts_nested_of_delimited : ∀ (stmts : List Stmt) (later : List Entry),
    Entry.Delimited (stmtEntries stmts ++ later) →
      stmtsNested (later.map Entry.node) stmts = true
  | [], _, _ => rfl
  | stmt :: stmts, later, delimited => by
      rw [stmtEntries, List.append_assoc] at delimited
      have stmt_nested := stmt.nested_of_delimited (stmtEntries stmts ++ later) delimited
      rw [List.map_append, map_node_stmtEntries] at stmt_nested
      rw [stmtsNested, Bool.and_eq_true]
      exact ⟨stmt_nested, stmts_nested_of_delimited stmts later delimited.of_append⟩

end

theorem Block.nested_of_delimited (block : Block)
    (delimited : Entry.Delimited (stmtEntries block.body)) : block.nested = true :=
  stmts_nested_of_delimited block.body [] (by rwa [List.append_nil])

theorem FuncDecl.nested_of_delimited (decl : FuncDecl) (delimited : Entry.Delimited decl.entries) :
    decl.nested = true := by
  unfold entries at delimited
  unfold nested
  cases found : decl.body with
  | none => rfl
  | some block =>
      rw [found] at delimited
      exact block.nested_of_delimited delimited.2

end Relock
