import TypedCss.Stylesheet

/-!
# Nodes and their addresses

The address of a node says which child to take at each level on the way to it. In the lexicographic order of
addresses a node comes before its children, and a child before its later siblings with everything below it: depth
first and from left to right. This is the order in which the problems of a tree are listed.
-/

namespace TypedCss

inductive Node where
  | expr (e : Expr)
  | stmt (s : Stmt)

namespace Node

def note : Node → Note
  | expr e => e.note
  | stmt s => s.note

/-- The nodes directly below a node, from left to right. -/
def children : Node → List Node
  | expr (.operation _ l r _) => [expr l, expr r]
  | expr _ => []
  | stmt (.assignment _ e _) => [expr e]
  | stmt (.declaration _ e _) => [expr e]
  | stmt (.rule _ body _) => body.map stmt
  | stmt (.ifClause c body _) => expr c :: body.map stmt

/-- The node at an address that starts from the given one. -/
def below? (node : Node) : List Nat → Option Node
  | [] => some node
  | i :: path => node.children[i]?.bind fun child => child.below? path

/-- The node at an address whose first entry counts the given nodes. -/
def at? (nodes : List Node) : List Nat → Option Node
  | [] => none
  | i :: path => nodes[i]?.bind fun node => node.below? path

theorem below?_cons (node : Node) (i : Nat) (path : List Nat) :
    node.below? (i :: path) = at? node.children (i :: path) := rfl

/-- What is reported of the node itself. -/
def diagnostic? (node : Node) : Option Diagnostic := node.note.problem?.map (⟨·, node.note.span⟩)

theorem diagnostic?_eq_some {node : Node} {d : Diagnostic} :
    node.diagnostic? = some d ↔ node.note.problem? = some d.problem ∧ node.note.span = d.span := by
  obtain ⟨problem, span⟩ := d
  rw [diagnostic?, Option.map_eq_some_iff]
  constructor
  · rintro ⟨p, hp, hd⟩
    obtain ⟨rfl, rfl⟩ := Diagnostic.mk.inj hd
    exact ⟨hp, rfl⟩
  · rintro ⟨hp, rfl⟩
    exact ⟨problem, hp, rfl⟩

end Node

theorem Note.diagnostics_eq_toList (n : Note) :
    n.diagnostics = (n.problem?.map (Diagnostic.mk · n.span)).toList := by
  obtain ⟨span, problem?⟩ := n
  cases problem? <;> rfl

/-- What is reported of the nodes that are found at some address, each with its address, in the order of the
addresses. -/
structure Listing (find? : List Nat → Option Node) (entries : List (List Nat × Diagnostic)) : Prop where
  ordered : entries.Pairwise fun a b => a.1 < b.1
  mem_iff : ∀ path d, (path, d) ∈ entries ↔ ∃ node, find? path = some node ∧ node.diagnostic? = some d

namespace Listing

variable {root : Node} {nodes : List Node} {entries entries' : List (List Nat × Diagnostic)}

theorem nil : Listing (Node.at? []) [] where
  ordered := .nil
  mem_iff path d := by cases path <;> simp [Node.at?]

theorem exists_cons_of_mem (h : Listing (Node.at? nodes) entries) {entry : List Nat × Diagnostic}
    (hentry : entry ∈ entries) : ∃ i path, entry.1 = i :: path := by
  apply List.exists_cons_of_ne_nil
  intro hnil
  obtain ⟨node, hnode, -⟩ := (h.mem_iff entry.1 entry.2).1 hentry
  rw [hnil] at hnode
  cases hnode

/-- A node comes before everything below it. -/
theorem node (h : Listing (Node.at? root.children) entries) :
    Listing root.below? (root.diagnostic?.toList.map ([], ·) ++ entries) where
  ordered := by
    refine List.pairwise_append.2 ⟨?_, h.ordered, ?_⟩
    · cases root.diagnostic? <;> simp
    · intro own hown entry hentry
      obtain ⟨d, -, rfl⟩ := List.mem_map.1 hown
      obtain ⟨i, path, hpath⟩ := h.exists_cons_of_mem hentry
      rw [hpath]
      exact List.nil_lt_cons i path
  mem_iff path d := by
    rw [List.mem_append]
    cases path with
    | nil =>
      have hbelow : ([], d) ∉ entries := by
        intro hd
        obtain ⟨i, path, hnil⟩ := h.exists_cons_of_mem hd
        cases hnil
      simp [hbelow, Node.below?]
    | cons i path =>
      rw [Node.below?_cons, ← h.mem_iff]
      simp

theorem mem_map_address {f : List Nat → List Nat} {path : List Nat} {d : Diagnostic} :
    (path, d) ∈ entries.map (Prod.map f id) ↔ ∃ path', (path', d) ∈ entries ∧ f path' = path := by
  simp only [List.mem_map, Prod.exists, Prod.map_apply, id_eq, Prod.mk.injEq]
  constructor
  · rintro ⟨path', _, hentry, hpath, rfl⟩
    exact ⟨path', hentry, hpath⟩
  · rintro ⟨path', hentry, hpath⟩
    exact ⟨path', d, hentry, hpath, rfl⟩

/-- The first of several nodes comes with everything below it before the others, whose addresses move on by one. -/
theorem cons (h : Listing root.below? entries) (h' : Listing (Node.at? nodes) entries') :
    Listing (Node.at? (root :: nodes))
      (entries.map (Prod.map (0 :: ·) id) ++ entries'.map (Prod.map (List.modifyHead (· + 1)) id)) where
  ordered := by
    refine List.pairwise_append.2 ⟨?_, ?_, ?_⟩
    · rw [List.pairwise_map]
      exact h.ordered.imp fun hlt => List.cons_lt_cons_iff.2 (.inr ⟨rfl, hlt⟩)
    · rw [List.pairwise_map]
      refine h'.ordered.imp_of_mem ?_
      intro a b ha hb hlt
      obtain ⟨i, path, ha⟩ := h'.exists_cons_of_mem ha
      obtain ⟨j, path', hb⟩ := h'.exists_cons_of_mem hb
      rw [ha, hb, List.cons_lt_cons_iff] at hlt
      simpa [ha, hb, List.cons_lt_cons_iff] using hlt
    · intro first hfirst later hlater
      obtain ⟨a, -, rfl⟩ := List.mem_map.1 hfirst
      obtain ⟨b, hb, rfl⟩ := List.mem_map.1 hlater
      obtain ⟨j, path, hb⟩ := h'.exists_cons_of_mem hb
      simp [hb, List.cons_lt_cons_iff]
  mem_iff path d := by
    have hlater {path' : List Nat} (hmem : (path', d) ∈ entries') : ∃ i rest, path' = i :: rest :=
      h'.exists_cons_of_mem hmem
    rw [List.mem_append, mem_map_address, mem_map_address]
    -- the first entry of an address says in which of the two parts it can be
    match path with
    | [] =>
      simp only [Node.at?, reduceCtorEq, and_false, exists_false, false_or, false_and, iff_false, not_exists, not_and]
      intro path' hmem hpath
      obtain ⟨i, rest, rfl⟩ := hlater hmem
      cases hpath
    | 0 :: path =>
      change _ ↔ ∃ node, root.below? path = some node ∧ node.diagnostic? = some d
      rw [← h.mem_iff]
      constructor
      · rintro (⟨path', hmem, hpath⟩ | ⟨path', hmem, hpath⟩)
        · exact (List.cons.inj hpath).2 ▸ hmem
        · obtain ⟨i, rest, rfl⟩ := hlater hmem
          cases hpath
      · exact fun hmem => .inl ⟨path, hmem, rfl⟩
    | (i + 1) :: path =>
      change _ ↔ ∃ node, Node.at? nodes (i :: path) = some node ∧ node.diagnostic? = some d
      rw [← h'.mem_iff]
      constructor
      · rintro (⟨path', hmem, hpath⟩ | ⟨path', hmem, hpath⟩)
        · cases hpath
        · obtain ⟨j, rest, rfl⟩ := hlater hmem
          obtain ⟨rfl, rfl⟩ : j = i ∧ rest = path := by simpa using hpath
          exact hmem
      · exact fun hmem => .inr ⟨i :: path, hmem, rfl⟩

end Listing

/-- The tree at some address lists its problems in the order of their addresses. -/
def Lists (find? : List Nat → Option Node) (ds : List Diagnostic) : Prop :=
  ∃ entries, Listing find? entries ∧ entries.map Prod.snd = ds

namespace Lists

variable {root : Node} {nodes : List Node} {ds es : List Diagnostic}

theorem nil : Lists (Node.at? []) [] := ⟨[], .nil, rfl⟩

theorem node (h : Lists (Node.at? root.children) ds) : Lists root.below? (root.note.diagnostics ++ ds) := by
  obtain ⟨entries, hlisting, rfl⟩ := h
  refine ⟨_, hlisting.node, ?_⟩
  have hown : root.note.diagnostics = root.diagnostic?.toList := root.note.diagnostics_eq_toList
  rw [hown, List.map_append, List.map_map]
  exact congrArg (· ++ _) (List.map_id _)

theorem leaf (h : root.children = []) : Lists root.below? root.note.diagnostics := by
  have hnone : Lists (Node.at? root.children) [] := h ▸ nil
  simpa using hnone.node

theorem cons (h : Lists root.below? ds) (h' : Lists (Node.at? nodes) es) :
    Lists (Node.at? (root :: nodes)) (ds ++ es) := by
  obtain ⟨entries, hlisting, rfl⟩ := h
  obtain ⟨entries', hlisting', rfl⟩ := h'
  refine ⟨_, hlisting.cons hlisting', ?_⟩
  rw [List.map_append, List.map_map, List.map_map]
  rfl

theorem singleton (h : Lists root.below? ds) : Lists (Node.at? [root]) ds := by
  simpa using h.cons .nil

end Lists

theorem Expr.lists_diagnostics (e : Expr) : Lists (Node.expr e).below? e.diagnostics := by
  induction e with
  | literal v n => exact .leaf rfl
  | reference x n => exact .leaf rfl
  | operation op l r n ihl ihr => exact .node (ihl.cons ihr.singleton)

namespace Stmt

mutual

theorem lists_diagnostics : (s : Stmt) → Lists (Node.stmt s).below? s.diagnostics
  | assignment _ e _ => .node e.lists_diagnostics.singleton
  | declaration _ e _ => .node e.lists_diagnostics.singleton
  | rule _ body _ => .node (lists_allDiagnostics body)
  | ifClause c body _ => .node (c.lists_diagnostics.cons (lists_allDiagnostics body))

theorem lists_allDiagnostics : (ss : List Stmt) → Lists (Node.at? (ss.map .stmt)) (allDiagnostics ss)
  | [] => .nil
  | s :: ss => (lists_diagnostics s).cons (lists_allDiagnostics ss)

end

end Stmt

namespace Stylesheet

/-- The node at an address in the stylesheet. -/
def nodeAt? (sheet : Stylesheet) : List Nat → Option Node := Node.at? (sheet.body.map .stmt)

theorem lists_diagnostics (sheet : Stylesheet) : Lists sheet.nodeAt? sheet.diagnostics :=
  Stmt.lists_allDiagnostics sheet.body

end Stylesheet

end TypedCss
