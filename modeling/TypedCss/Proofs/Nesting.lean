import TypedCss.Proofs.Emission
import TypedCss.Proofs.Extents
import TypedCss.Proofs.Nodes
import TypedCss.Proofs.Tiling

/-!
# Spans are nested as nodes are

The tokens of a source follow each other, so a node that spans some of them begins before it ends. What is below it
spans fewer of these tokens, which gives it a span inside that of the node, and siblings share no token.
-/

namespace TypedCss

open Grammar

/-- The tokens follow each other between the two offsets, and none of them is empty. -/
def Token.Between : Nat → List Token → Nat → Prop
  | a, [], b => a ≤ b
  | a, t :: ts, b => a ≤ t.start ∧ t.start < t.stop ∧ Between t.stop ts b

namespace Token.Between

variable {a b : Nat} {t : Token} {v w : List Token}

theorem le (h : Between a w b) : a ≤ b := by
  induction w generalizing a with
  | nil => exact h
  | cons t w ih =>
    obtain ⟨ha, ht, h⟩ := h
    have := ih h
    omega

/-- One of the tokens parts the others into those before and those after it. -/
theorem append_cons : Between a (v ++ t :: w) b ↔ Between a v t.start ∧ t.start < t.stop ∧ Between t.stop w b := by
  induction v generalizing a with
  | nil => rfl
  | cons u v ih => rw [List.cons_append, Between, Between, ih, and_assoc, and_assoc]

theorem enclosed {u : Token} (h : Between a (t :: w ++ [u]) b) :
    (a ≤ t.start ∧ t.start < t.stop) ∧ Between t.stop w u.start ∧ u.start < u.stop ∧ u.stop ≤ b := by
  obtain ⟨ha, ht, h⟩ := h
  obtain ⟨hw, hu, hb⟩ := append_cons.1 h
  exact ⟨⟨ha, ht⟩, hw, hu, hb⟩

theorem append_headD {next : Token} (h : Between a (v ++ w) next.start) :
    Between a v (w.headD next).start ∧ Between (w.headD next).start w next.start := by
  cases w with
  | nil => exact ⟨by rwa [List.append_nil] at h, Nat.le_refl _⟩
  | cons t w =>
    obtain ⟨hv, ht, hw⟩ := append_cons.1 h
    exact ⟨hv, Nat.le_refl _, ht, hw⟩

theorem right (h : Between a (v ++ w) b) : ∃ c, Between c w b := by
  induction v generalizing a with
  | nil => exact ⟨a, h⟩
  | cons t v ih => exact ih h.2.2

/-- Tokens in a row out of these also follow each other up to the next one. -/
theorem of_row {last next : Token} (h : Between a w last.start) (hv : v ++ [next] <:+: w ++ [last]) :
    ∃ c, Between c v next.start := by
  obtain ⟨before, after, heq⟩ := hv
  rcases List.eq_nil_or_concat after with rfl | ⟨after, u, rfl⟩
  · rw [List.append_nil, ← List.append_assoc] at heq
    obtain ⟨rfl, hlast⟩ := List.append_inj' heq rfl
    obtain rfl := (List.cons.inj hlast).1
    exact h.right
  · rw [List.concat_eq_append, ← List.append_assoc] at heq
    obtain ⟨rfl, -⟩ := List.append_inj' heq rfl
    rw [← List.append_assoc before, List.append_assoc, List.singleton_append] at h
    exact (append_cons.1 h).1.right

end Token.Between

theorem Tiles.between {file : String} {n : Nat} {cs : List Char} {ts : List Token} (h : Tiles file n cs ts)
    (hsize : n + Text.size cs < 4294967296) : Token.Between n ts (n + Text.size cs) := by
  induction h with
  | nil => exact Nat.le_add_right _ _
  | @cons n gap text rest kind ts hgap htext h ih =>
    simp only [Text.size_append] at hsize
    have hpos := Text.size_pos htext.ne_nil
    obtain ⟨hstart, hstop⟩ := Token.ends_ofLength kind (String.ofList text) file (n + Text.size gap)
      (Text.size text) (by omega)
    refine ⟨by omega, by omega, ?_⟩
    rw [hstop, Text.size_append, Text.size_append, ← Nat.add_assoc, ← Nat.add_assoc]
    exact ih (by omega)

namespace Node

/-- The offset at which the node begins. -/
def start (node : Node) : Nat := node.note.span.start.offset.toNat

/-- The offset at which the node has ended. -/
def stop (node : Node) : Nat := node.note.span.stop.offset.toNat

/-- The nodes stand next to each other between the two offsets, and none of them is empty. -/
structure SideBySide (a b : Nat) (nodes : List Node) : Prop where
  within : ∀ node ∈ nodes, a ≤ node.start ∧ node.start < node.stop ∧ node.stop ≤ b
  ordered : nodes.Pairwise fun l r => l.stop ≤ r.start

namespace SideBySide

variable {a b : Nat} {node : Node} {nodes : List Node}

theorem nil : SideBySide a b [] := ⟨nofun, .nil⟩

theorem cons (hnode : a ≤ node.start ∧ node.start < node.stop ∧ node.stop ≤ b) (h : SideBySide node.stop b nodes) :
    SideBySide a b (node :: nodes) := by
  constructor
  · refine List.forall_mem_cons.2 ⟨hnode, fun other hother => ?_⟩
    obtain ⟨hstart, hlt, hstop⟩ := h.within other hother
    omega
  · exact List.pairwise_cons.2 ⟨fun other hother => (h.within other hother).1, h.ordered⟩

theorem mono {c d : Nat} (h : SideBySide c d nodes) (hac : a ≤ c) (hdb : d ≤ b) : SideBySide a b nodes := by
  refine ⟨fun node hnode => ?_, h.ordered⟩
  obtain ⟨hstart, hlt, hstop⟩ := h.within node hnode
  omega

end SideBySide

end Node

namespace Grammar

variable {a b : Nat} {t next : Token} {w : List Token} {e : Expr} {st : Stmt} {ss : List Stmt}

theorem operandOf_eq_ok (h : operandOf t = .ok e) : e.span = t.span ∧ (Node.expr e).children = [] := by
  unfold operandOf at h
  cases hkind : t.kind with
  | number m =>
    rw [hkind] at h
    dsimp only at h
    cases hnumber : number? m t.text with
    | none =>
      rw [hnumber] at h
      cases h
    | some n =>
      rw [hnumber] at h
      obtain rfl := Except.ok.inj h
      exact ⟨rfl, rfl⟩
  | color | flag | name =>
    rw [hkind] at h
    obtain rfl := Except.ok.inj h
    exact ⟨rfl, rfl⟩
  | _ =>
    rw [hkind] at h
    cases h

namespace SpansExpr

theorem bounds (h : SpansExpr w e) (hw : Token.Between a w b) :
    a ≤ (Node.expr e).start ∧ (Node.expr e).start < (Node.expr e).stop ∧ (Node.expr e).stop ≤ b := by
  induction h generalizing a b with
  | @operand t e h =>
    have hstart : (Node.expr e).start = t.start := congrArg (·.start.offset.toNat) (operandOf_eq_ok h).1
    have hstop : (Node.expr e).stop = t.stop := congrArg (·.stop.offset.toNat) (operandOf_eq_ok h).1
    rw [hstart, hstop]
    exact hw
  | group _ _ _ ih =>
    obtain ⟨hopen, hw, hclose⟩ := hw.enclosed
    have := ih hw
    omega
  | @operation t op v w l r hl ht hr ihl ihr =>
    obtain ⟨hv, hlt, hw⟩ := Token.Between.append_cons.1 hw
    obtain ⟨hlstart, hlne, hlstop⟩ := ihl hv
    obtain ⟨hrstart, hrne, hrstop⟩ := ihr hw
    have hne : (Node.expr l).start < (Node.expr r).stop := by omega
    exact ⟨hlstart, hne, hrstop⟩

theorem sideBySide (h : SpansExpr w e) (hw : Token.Between a w b) :
    Node.SideBySide (Node.expr e).start (Node.expr e).stop (Node.expr e).children := by
  induction h generalizing a b with
  | operand h =>
    rw [(operandOf_eq_ok h).2]
    exact .nil
  | group _ _ _ ih => exact ih hw.enclosed.2.1
  | @operation t op v w l r hl ht hr ihl ihr =>
    obtain ⟨hv, hlt, hw⟩ := Token.Between.append_cons.1 hw
    obtain ⟨-, hlne, hlstop⟩ := hl.bounds hv
    obtain ⟨hrstart, hrne, -⟩ := hr.bounds hw
    have hle : (Node.expr l).stop ≤ (Node.expr r).start := by omega
    have hright : Node.SideBySide (Node.expr l).stop (Node.expr r).stop [.expr r] :=
      .cons ⟨hle, hrne, Nat.le_refl _⟩ .nil
    exact .cons ⟨Nat.le_refl _, hlne, Nat.le_trans hle (Nat.le_of_lt hrne)⟩ hright

end SpansExpr

/-- What stands between a name and a semicolon. -/
theorem bounds_of_marked {name mark stop : Token} (he : SpansExpr w e)
    (hw : Token.Between a (name :: mark :: w ++ [stop]) b) :
    (a ≤ name.start ∧ name.start < stop.stop ∧ stop.stop ≤ b) ∧
      Node.SideBySide name.start stop.stop [.expr e] := by
  obtain ⟨ha, hname, hw⟩ := hw
  obtain ⟨hmark, hw, hstop⟩ := hw.enclosed
  obtain ⟨hstart, hne, hle⟩ := he.bounds hw
  refine ⟨by omega, .cons ?_ .nil⟩
  omega

theorem Statement.bounds (h : Statement SpansExpr SpansBody next w st) (hw : Token.Between a w next.start) :
    a ≤ (Node.stmt st).start ∧ (Node.stmt st).start < (Node.stmt st).stop ∧ (Node.stmt st).stop ≤ next.start := by
  cases h with
  | assignment _ _ he _ => exact (bounds_of_marked he hw).1
  | declaration _ _ he _ => exact (bounds_of_marked he hw).1
  | rule _ _ =>
    obtain ⟨ha, ht, hw⟩ := hw
    exact ⟨ha, Nat.lt_of_lt_of_le ht hw.le, Nat.le_refl _⟩
  | ifClause _ _ _ _ _ =>
    obtain ⟨ha, hstart, hw⟩ := hw
    exact ⟨ha, Nat.lt_of_lt_of_le hstart hw.le, Nat.le_refl _⟩

theorem SpansAll.sideBySide (h : SpansAll next w ss) (hw : Token.Between a w next.start) :
    Node.SideBySide a next.start (ss.map .stmt) := by
  induction ss generalizing a w with
  | nil => exact .nil
  | cons st ss ih =>
    obtain - | ⟨h, hs⟩ := h
    obtain ⟨hv, hw⟩ := hw.append_headD
    obtain ⟨hstart, hne, hstop⟩ := h.bounds hv
    exact .cons ⟨hstart, hne, Nat.le_trans hstop hw.le⟩ ((ih hs hw).mono hstop (Nat.le_refl _))

theorem SpansBody.sideBySide (h : SpansBody w ss) (hw : Token.Between a w b) :
    Node.SideBySide a b (ss.map .stmt) := by
  obtain ⟨-, h, -⟩ := h
  obtain ⟨hopen, hw, hclose⟩ := hw.enclosed
  exact (h.sideBySide hw).mono (by omega) (by omega)

theorem Statement.sideBySide (h : Statement SpansExpr SpansBody next w st) (hw : Token.Between a w next.start) :
    Node.SideBySide (Node.stmt st).start (Node.stmt st).stop (Node.stmt st).children := by
  cases h with
  | assignment _ _ he _ => exact (bounds_of_marked he hw).2
  | declaration _ _ he _ => exact (bounds_of_marked he hw).2
  | rule _ hbody =>
    obtain ⟨-, ht, hw⟩ := hw
    exact (hbody.sideBySide hw).mono (Nat.le_of_lt ht) (Nat.le_refl _)
  | @ifClause start left right next v w c body _ _ hc _ hbody =>
    obtain ⟨-, hstart, hleft, hleft', hw⟩ := hw
    obtain ⟨hv, hright, hw⟩ := Token.Between.append_cons.1 hw
    obtain ⟨hcstart, hcne, hcstop⟩ := hc.bounds hv
    have hrest := hw.le
    have hbody := (hbody.sideBySide hw).mono (Nat.le_trans hcstop (Nat.le_of_lt hright)) (Nat.le_refl _)
    have hcondition : start.start ≤ (Node.expr c).start ∧ (Node.expr c).stop ≤ next.start := by omega
    exact .cons ⟨hcondition.1, hcne, hcondition.2⟩ hbody

/-- The tokens of a node, where `next` comes after them. -/
def SpansNode (next : Token) (w : List Token) : Node → Prop
  | .expr e => SpansExpr w e
  | .stmt st => Statement SpansExpr SpansBody next w st

variable {node child : Node}

theorem SpansNode.bounds (h : SpansNode next w node) (hw : Token.Between a w next.start) :
    a ≤ node.start ∧ node.start < node.stop ∧ node.stop ≤ next.start := by
  cases node with
  | expr e => exact SpansExpr.bounds h hw
  | stmt st => exact Statement.bounds h hw

theorem SpansNode.sideBySide (h : SpansNode next w node) (hw : Token.Between a w next.start) :
    Node.SideBySide node.start node.stop node.children := by
  cases node with
  | expr e => exact SpansExpr.sideBySide h hw
  | stmt st => exact Statement.sideBySide h hw

theorem SpansExpr.spansNode_child (h : SpansExpr w e) (hchild : child ∈ (Node.expr e).children) (next : Token) :
    ∃ v u, SpansNode u v child ∧ v ++ [u] <:+: w ++ [next] := by
  induction h generalizing next with
  | operand h =>
    rw [(operandOf_eq_ok h).2] at hchild
    cases hchild
  | @group start stop w e _ _ _ ih =>
    obtain ⟨v, u, hspans, hv⟩ := ih hchild stop
    exact ⟨v, u, hspans, hv.trans ⟨[start], [next], by simp⟩⟩
  | @operation t op v w l r hl ht hr _ _ =>
    rcases List.mem_cons.1 hchild with rfl | hchild
    · exact ⟨v, t, hl, [], w ++ [next], by simp⟩
    · obtain rfl := List.mem_singleton.1 hchild
      exact ⟨w, next, hr, v ++ [t], [], by simp⟩

theorem SpansAll.spansNode (h : SpansAll next w ss) (hst : st ∈ ss) :
    ∃ v u, SpansNode u v (.stmt st) ∧ v ++ [u] <:+: w ++ [next] := by
  induction ss generalizing w with
  | nil => cases hst
  | cons st' ss ih =>
    obtain - | @⟨_, v, w, _, _, h, hs⟩ := h
    rcases List.mem_cons.1 hst with rfl | hst
    · refine ⟨v, w.headD next, h, ?_⟩
      cases w with
      | nil => exact ⟨[], [], by simp⟩
      | cons t w => exact ⟨[], w ++ [next], by simp⟩
    · obtain ⟨v', u, hspans, hv⟩ := ih hs hst
      exact ⟨v', u, hspans, hv.trans ⟨v, [], by simp⟩⟩

theorem SpansBody.spansNode (h : SpansBody w ss) (hchild : child ∈ ss.map .stmt) :
    ∃ v u, SpansNode u v child ∧ v ++ [u] <:+: w := by
  obtain ⟨st, hst, rfl⟩ := List.mem_map.1 hchild
  obtain @⟨start, stop, w, _, -, h, -⟩ := h
  obtain ⟨v, u, hspans, hv⟩ := h.spansNode hst
  exact ⟨v, u, hspans, hv.trans ⟨[start], [], by simp⟩⟩

/-- A child spans some tokens in a row out of those of its parent. -/
theorem SpansNode.spansNode_child (h : SpansNode next w node) (hchild : child ∈ node.children) :
    ∃ v u, SpansNode u v child ∧ v ++ [u] <:+: w ++ [next] := by
  cases node with
  | expr e => exact SpansExpr.spansNode_child h hchild next
  | stmt st =>
    cases h with
    | @assignment name mark stop _ w e _ _ he _ =>
      obtain rfl := List.mem_singleton.1 hchild
      exact ⟨w, stop, he, [name, mark], [next], by simp⟩
    | @declaration property mark stop _ w e _ _ he _ =>
      obtain rfl := List.mem_singleton.1 hchild
      exact ⟨w, stop, he, [property, mark], [next], by simp⟩
    | @rule t _ _ w body _ hbody =>
      obtain ⟨v, u, hspans, hv⟩ := hbody.spansNode hchild
      exact ⟨v, u, hspans, hv.trans ⟨[t], [next], by simp⟩⟩
    | @ifClause start left right _ v w c body _ _ hc _ hbody =>
      rcases List.mem_cons.1 hchild with rfl | hchild
      · exact ⟨v, right, hc, [start, left], w ++ [next], by simp⟩
      · obtain ⟨v', u, hspans, hv⟩ := hbody.spansNode hchild
        exact ⟨v', u, hspans, hv.trans ⟨start :: left :: v ++ [right], [next], by simp⟩⟩

theorem SpansNode.spansNode_below {path : List Nat} {root : Node} (h : SpansNode next w root)
    (hnode : root.below? path = some node) : ∃ v u, SpansNode u v node ∧ v ++ [u] <:+: w ++ [next] := by
  induction path generalizing root next w with
  | nil =>
    obtain rfl := Option.some.inj hnode
    exact ⟨w, next, h, List.infix_rfl⟩
  | cons i path ih =>
    obtain ⟨child, hchild, hnode⟩ := Option.bind_eq_some_iff.1 hnode
    obtain ⟨v, u, hspans, hv⟩ := h.spansNode_child (List.mem_of_getElem? hchild)
    obtain ⟨v', u', hspans', hv'⟩ := ih hspans hnode
    exact ⟨v', u', hspans', hv'.trans hv⟩

theorem SpansAll.spansNode_at {path : List Nat} (h : SpansAll next w ss)
    (hnode : Node.at? (ss.map .stmt) path = some node) : ∃ v u, SpansNode u v node ∧ v ++ [u] <:+: w ++ [next] := by
  cases path with
  | nil => cases hnode
  | cons i path =>
    obtain ⟨root, hroot, hnode⟩ := Option.bind_eq_some_iff.1 hnode
    obtain ⟨st, hst, rfl⟩ := List.mem_map.1 (List.mem_of_getElem? hroot)
    obtain ⟨v, u, hspans, hv⟩ := h.spansNode hst
    obtain ⟨v', u', hspans', hv'⟩ := hspans.spansNode_below hnode
    exact ⟨v', u', hspans', hv'.trans hv⟩

theorem SpansExpr.exists_token (h : SpansExpr w e) (hleaf : (Node.expr e).children = []) :
    ∃ t ∈ w, operandOf t = .ok e := by
  induction h with
  | @operand t e h => exact ⟨t, List.mem_singleton_self t, h⟩
  | group _ _ _ ih =>
    obtain ⟨t, ht, hoperand⟩ := ih hleaf
    exact ⟨t, List.mem_append_left _ (List.mem_cons_of_mem _ ht), hoperand⟩
  | operation => cases hleaf

theorem SpansExpr.span_operation {op : Operator} {l r : Expr} {n : Note} (h : SpansExpr w (.operation op l r n)) :
    n.span = ⟨l.span.start, r.span.stop⟩ := by
  generalize he : Expr.operation op l r n = e at h
  induction h with
  | operand h =>
    subst he
    cases (operandOf_eq_ok h).2
  | group _ _ _ ih => exact ih he
  | operation =>
    cases he
    rfl

end Grammar

/-- The span of a stylesheet is the whole source. The nodes directly below it, and those directly below any other node,
stand inside its span, next to each other and in the order of the source, and no node is empty. Every node spans some
tokens of the source in a row: an operand its own token, an operation its two operands, an assignment and a declaration
all from the name to the semicolon, and a rule and an if clause all from the first token to the one after the closing
bracket. -/
theorem spans_nest_like_nodes {file source : String} {sheet : Stylesheet} (hsize : source.utf8ByteSize < 4294967296)
    (h : Stylesheet.ofSource file source = .ok sheet) :
    sheet.span = ⟨⟨0, file⟩, ⟨.ofNat source.utf8ByteSize, file⟩⟩ ∧
    Node.SideBySide 0 source.utf8ByteSize (sheet.body.map .stmt) ∧
    ∃ w last, Token.ofSource file source = .ok (w ++ [last]) ∧ SpansAll last w sheet.body ∧
      ∀ path node, sheet.nodeAt? path = some node →
        node.start < node.stop ∧ Node.SideBySide node.start node.stop node.children ∧
        (∃ v next, v ++ [next] <:+: w ++ [last] ∧ SpansNode next v node) ∧
        (∀ op l r n, node = .expr (.operation op l r n) → n.span = ⟨l.span.start, r.span.stop⟩) ∧
        ∀ e, node = .expr e → node.children = [] → ∃ t ∈ w, operandOf t = .ok e ∧ e.span = t.span ∧
          source.toByteArray.extract node.start node.stop = t.text.toByteArray := by
  obtain ⟨ts, hts, hread⟩ := except_bind_eq_ok.1 h
  obtain ⟨hrest, rfl⟩ := Token.ofSource_eq_ok.1 hts
  have htiles := Tiles.of_lexemes file 0 source.toList hrest
  have hspelled : ∀ t ∈ Lexeme.tokens file 0 (Lexeme.all source.toList).1, t.IsSpelled :=
    Lexeme.isSpelled_of_mem_tokens fun l hl kind => Lexeme.admits_of_mem_all hl
  obtain ⟨hspans, hspan⟩ := ofTokens_spans rfl hspelled hread
  have hlast : (Token.endOfInput file (Text.size source.toList)).start = source.utf8ByteSize := by
    rw [Text.size_toList]
    exact (Token.ends_ofLength .endOfInput "EOF" file source.utf8ByteSize 0 hsize).1
  have hbetween := htiles.between (by rwa [Nat.zero_add, Text.size_toList])
  rw [Nat.zero_add, Text.size_toList, ← hlast] at hbetween
  refine ⟨by rw [hspan, Text.size_toList]; rfl, hlast ▸ hspans.sideBySide hbetween, _, _, hts, hspans, ?_⟩
  intro path node hnode
  obtain ⟨v, next, hv, hrow⟩ := hspans.spansNode_at hnode
  obtain ⟨a, hbetween⟩ := hbetween.of_row hrow
  refine ⟨(hv.bounds hbetween).2.1, hv.sideBySide hbetween, ⟨v, next, hrow, hv⟩, ?_, ?_⟩
  · rintro op l r n rfl
    exact SpansExpr.span_operation hv
  · rintro e rfl hleaf
    obtain ⟨t, ht, hoperand⟩ := SpansExpr.exists_token hv hleaf
    have htspan := (operandOf_eq_ok hoperand).1
    rcases List.mem_append.1 (hrow.subset (List.mem_append_left _ ht)) with ht | ht
    · have htext := ((htiles.tile hsize).texts t ht).2.2
      refine ⟨t, ht, hoperand, htspan, ?_⟩
      rwa [Token.start, Token.stop, ← htspan] at htext
    · rw [List.mem_singleton.1 ht] at hoperand
      cases hoperand

/-- The clause ends where the declaration behind the comment begins, and parentheses do not widen the product. -/
theorem spans_nest_like_nodes_clause :
    let source := ".a \x7b if [TRUE] \x7b w: (1px + X) * 2; \x7d // é\n h: 3; \x7d X := 1px;"
    source.utf8ByteSize < 4294967296 ∧ ∃ sheet, Stylesheet.ofSource "a.icss" source = .ok sheet ∧
      ([[0], [0, 0], [0, 0, 1], [0, 0, 1, 0], [0, 1], [1]].map fun path =>
        (sheet.nodeAt? path).map fun node => (node.start, node.stop)) =
          [some (0, 52), some (5, 44), some (17, 34), some (21, 33), some (44, 49), some (52, 61)] ∧
      sheet.span = ⟨⟨0, "a.icss"⟩, ⟨61, "a.icss"⟩⟩ ∧ Node.SideBySide 0 61 (sheet.body.map .stmt) ∧
      ∀ path node, sheet.nodeAt? path = some node → Node.SideBySide node.start node.stop node.children := by
  intro source
  have hsize : source.utf8ByteSize = 61 := by decide +kernel
  have hlt : source.utf8ByteSize < 4294967296 := by omega
  have hoffsets : (Stylesheet.ofSource "a.icss" source).toOption.map (fun sheet =>
      [[0], [0, 0], [0, 0, 1], [0, 0, 1, 0], [0, 1], [1]].map fun path =>
        (sheet.nodeAt? path).map fun node => (node.start, node.stop)) =
      some [some (0, 52), some (5, 44), some (17, 34), some (21, 33), some (44, 49), some (52, 61)] := by
    decide +kernel
  cases hread : Stylesheet.ofSource "a.icss" source with
  | error fault =>
    rw [hread] at hoffsets
    cases hoffsets
  | ok sheet =>
    rw [hread] at hoffsets
    obtain ⟨hspan, htop, w, last, -, -, hnodes⟩ := spans_nest_like_nodes hlt hread
    rw [hsize] at hspan htop
    exact ⟨hlt, sheet, rfl, Option.some.inj hoffsets, hspan, htop, fun path node hnode => (hnodes path node hnode).2.1⟩

end TypedCss
