import Mathlib.Data.List.Forall2
import GujaratiScript.Proofs.Spelling.Extent
import GujaratiScript.Proofs.Layout.RoundTrip

/-!
# Spans of trees

The span of a node reaches from the first to the last of the lexemes that it was put together from.
Parentheses belong to no span, so it need not reach over all lexemes that were read.

* `Span.Holds` : a span around others, which follow one another;
* `Expr.Nested`, `Stmt.Nested`, `Program.Nested` : every span of a tree holds those of the parts of
  its node, and the nodes without parts have the spans of lexemes;
* `LexemeRow.node` : a span that reaches from the first to the last of some spans holds them;
* `spans_nest` : the spans of every program that was read are nested.
-/

namespace GujaratiScript

open Grammar

/-! ## Spans around spans -/

/-- The range of `s` contains those of `parts`, which follow one another without overlap. -/
structure Span.Holds (s : Span) (parts : List Span) : Prop where
  inside : ∀ t ∈ parts, s.start ≤ t.start ∧ t.start ≤ t.stop ∧ t.stop ≤ s.stop
  inTurn : parts.Pairwise fun t u => t.stop ≤ u.start

section

variable (seen : Token → Span → Prop)

/-- Every span of the expression holds those of the operands and operators at its node, in the order
in which they are written; literals, names, operators and readings are `seen` at their spans. -/
def Expr.Nested : Expr → Prop
  | int n s => seen (.int n) s
  | str t s => seen (.str t) s
  | bool b s => seen (.word (if b then .bhaiChhe else .bhaiNathi)) s
  | var ident => seen (.ident ident.name) ident.span
  | input s => seen (.word .bapuTameBolo) s
  | negate e s => s.Holds [e.span] ∧ e.Nested
  | binary o l r operatorSpan s =>
    s.Holds [l.span, operatorSpan, r.span] ∧ seen (.op o) operatorSpan ∧ l.Nested ∧ r.Nested

mutual

/-- Every span of the statement holds those of the parts of its node, in the order in which they are
written. -/
def Stmt.Nested : Stmt → Prop
  | .print e s => s.Holds [e.span] ∧ e.Nested seen
  | .declare ident e s =>
    s.Holds [ident.span, e.span] ∧ seen (.ident ident.name) ident.span ∧ e.Nested seen
  | .assign ident e s =>
    s.Holds [ident.span, e.span] ∧ seen (.ident ident.name) ident.span ∧ e.Nested seen
  | .branch c yes none s => s.Holds [c.span, yes.span] ∧ c.Nested seen ∧ yes.Nested
  | .branch c yes (some no) s =>
    s.Holds [c.span, yes.span, no.span] ∧ c.Nested seen ∧ yes.Nested ∧ no.Nested
  | .loop body c s => s.Holds [body.span, c.span] ∧ body.Nested ∧ c.Nested seen
  | .leave s => seen (.word .tameJao) s
  | .again s => seen (.word .aagalVado) s
  | .block b => b.Nested
termination_by structural s => s

/-- The span of the block holds those of its statements. -/
def Block.Nested : Block → Prop
  | ⟨body, s⟩ => s.Holds (body.map Stmt.span) ∧ allNested body
termination_by structural b => b

/-- The spans of all these statements are nested. -/
def allNested : List Stmt → Prop
  | [] => True
  | s :: rest => s.Nested ∧ allNested rest
termination_by structural l => l

end

/-- The span of the program holds those of its statements, and theirs are nested. -/
def Program.Nested (p : Program) : Prop :=
  p.span.Holds (p.body.map Stmt.span) ∧ allNested seen p.body

end

/-! ## Spans of pieces -/

/-- The span begins with one of the lexemes and ends with one of them. -/
structure Span.Within (w : List Lexeme) (s : Span) : Prop where
  start : ∃ x ∈ w, s.start = x.span.start
  stop : ∃ x ∈ w, s.stop = x.span.stop
  forward : s.start ≤ s.stop

namespace Span.Within

variable {w v : List Lexeme} {s t : Span}

theorem mono (h : s.Within w) (sub : w ⊆ v) : s.Within v where
  start := h.start.imp fun _ ⟨mem, eq⟩ => ⟨sub mem, eq⟩
  stop := h.stop.imp fun _ ⟨mem, eq⟩ => ⟨sub mem, eq⟩
  forward := h.forward

theorem upTo (hs : s.Within w) (ht : t.Within w) : (s.upTo t).Within w where
  start := hs.start
  stop := by
    by_cases le : t.stop ≤ s.stop
    · rw [Span.upTo_of_le le]
      exact hs.stop
    · rw [Span.upTo_of_lt (UInt32.not_le.1 le)]
      exact ht.stop
  forward := UInt32.le_trans hs.forward (s.stop_le_upTo t)

end Span.Within

/-- Lexemes that stand one behind the other, all of them `seen`. -/
structure LexemeRow (seen : Token → Span → Prop) (w : List Lexeme) : Prop where
  seen : ∀ x ∈ w, seen x.token x.span
  forward : ∀ x ∈ w, x.span.start ≤ x.span.stop
  ordered : w.Pairwise fun x y => x.span.stop ≤ y.span.start

namespace LexemeRow

variable {seen : Token → Span → Prop} {w v : List Lexeme}

theorem sublist (h : LexemeRow seen w) (sub : v.Sublist w) : LexemeRow seen v where
  seen x mem := h.seen x (sub.subset mem)
  forward x mem := h.forward x (sub.subset mem)
  ordered := h.ordered.sublist sub

theorem tail {x : Lexeme} (h : LexemeRow seen (x :: w)) : LexemeRow seen w :=
  h.sublist (List.sublist_cons_self x w)

theorem left (h : LexemeRow seen (w ++ v)) : LexemeRow seen w :=
  h.sublist (List.sublist_append_left w v)

theorem right (h : LexemeRow seen (w ++ v)) : LexemeRow seen v :=
  h.sublist (List.sublist_append_right w v)

/-- A lexeme is a piece of its own. -/
theorem within (h : LexemeRow seen w) (x : Lexeme) (mem : x ∈ w) : x.span.Within [x] where
  start := ⟨x, List.mem_singleton_self x, rfl⟩
  stop := ⟨x, List.mem_singleton_self x, rfl⟩
  forward := h.forward x mem

/-- Spans within one piece each lie within all pieces together, and follow one another as the pieces
do. -/
theorem inTurn {ws : List (List Lexeme)} {chain : List Span} (h : LexemeRow seen ws.flatten)
    (pieces : List.Forall₂ (fun w s => s.Within w) ws chain) :
    (∀ s ∈ chain, s.Within ws.flatten) ∧ chain.Pairwise fun s t => s.stop ≤ t.start := by
  induction pieces with
  | nil => exact ⟨List.forall_mem_nil _, .nil⟩
  | @cons w s ws chain first rest ih =>
    rw [List.flatten_cons] at h ⊢
    obtain ⟨within, ordered⟩ := ih h.right
    refine ⟨List.forall_mem_cons.2 ⟨first.mono (List.subset_append_left _ _),
      fun t mem => (within t mem).mono (List.subset_append_right _ _)⟩,
      List.pairwise_cons.2 ⟨fun t mem => ?_, ordered⟩⟩
    obtain ⟨x, memx, stop⟩ := first.stop
    obtain ⟨y, memy, start⟩ := (within t mem).start
    rw [stop, start]
    exact (List.pairwise_append.1 h.ordered).2.2 x memx y memy

/-- A span from the first to the last of such spans lies within the pieces too, and it holds as many
of them as are parts of the node. -/
theorem node {ws : List (List Lexeme)} {chain : List Span} {first last : Span}
    (h : LexemeRow seen w) (cut : ws.flatten = w)
    (pieces : List.Forall₂ (fun w s => s.Within w) ws chain) (hf : chain.head? = some first)
    (hl : chain.getLast? = some last) (parts : List Span) (sub : parts.Sublist chain) :
    (first.upTo last).Within w ∧ (first.upTo last).Holds parts := by
  subst cut
  obtain ⟨within, ordered⟩ := h.inTurn pieces
  refine ⟨(within first (List.mem_of_head? hf)).upTo (within last (List.mem_of_getLast? hl)),
    fun t mem => ?_, ordered.sublist sub⟩
  have mem := sub.subset mem
  have forward := (within t mem).forward
  refine ⟨?_, forward, ?_⟩
  · obtain ⟨rest, rfl⟩ := List.head?_eq_some_iff.1 hf
    rcases List.mem_cons.1 mem with rfl | mem
    · exact UInt32.le_refl _
    · have behind := (List.pairwise_cons.1 ordered).1 t mem
      have first := (within first List.mem_cons_self).forward
      exact UInt32.le_trans first behind
  · obtain ⟨init, rfl⟩ := List.getLast?_eq_some_iff.1 hl
    have last := (within last (List.mem_append_right _ (List.mem_singleton_self _))).forward
    refine UInt32.le_trans ?_ (Span.le_stop_upTo _ _)
    rcases List.mem_append.1 mem with mem | mem
    · have ahead := (List.pairwise_append.1 ordered).2.2 t mem _ (List.mem_singleton_self _)
      exact UInt32.le_trans ahead last
    · rw [List.mem_singleton.1 mem]
      exact UInt32.le_refl _

/-- A span from one lexeme to another holds all spans within the pieces between them. -/
theorem enclosing {x y : Lexeme} {ws : List (List Lexeme)} {spans : List Span}
    (h : LexemeRow seen (x :: (w ++ [y]))) (cut : ws.flatten = w)
    (pieces : List.Forall₂ (fun w s => s.Within w) ws spans) :
    (x.span.upTo y.span).Within (x :: (w ++ [y])) ∧ (x.span.upTo y.span).Holds spans := by
  have first := h.within x (by simp)
  have last := h.within y (by simp)
  have whole : List.Forall₂ (fun w s => s.Within w) ([x] :: (ws ++ [[y]]))
      (x.span :: spans ++ [y.span]) := .cons first (List.rel_append pieces (.cons last .nil))
  exact h.node (by simp [cut]) whole rfl List.getLast?_concat spans (by simp)

end LexemeRow

/-! ## Derived trees -/

namespace Grammar

variable {seen : Token → Span → Prop}

/-- An operand that is one lexeme is seen at it. -/
theorem nested_of_leaf? {x : Lexeme} {e : Expr} (h : x.leaf? = some e)
    (hx : seen x.token x.span) : e.Nested seen := by
  rcases x with ⟨t, text, span⟩
  cases t with
  | word k => cases k <;> cases h <;> exact hx
  | _ => cases h <;> exact hx

/-- The spans of an expression are nested, and its own lies within its lexemes. -/
theorem Expression.nested {t : Tier} {w : List Lexeme} {e : Expr} {k l : Nat}
    (h : Expression t w e k l) (row : LexemeRow seen w) : e.span.Within w ∧ e.Nested seen := by
  induction h with
  | @leaf x e leaf =>
    have mem := List.mem_singleton_self x
    have nested := nested_of_leaf? leaf (row.seen x mem)
    rw [Lexeme.span_of_leaf? leaf]
    exact ⟨row.within _ mem, nested⟩
  | @parens x y w e _ _ _ _ _ ih =>
    obtain ⟨within, nested⟩ := ih row.tail.left
    exact ⟨within.mono (by simp), nested⟩
  | @negate x w e _ _ _ _ ih =>
    obtain ⟨within, nested⟩ := ih row.tail
    have minus := row.within x (by simp)
    obtain ⟨outer, holds⟩ := row.node (by simp) (.cons minus (.cons within .nil)) rfl rfl
      [e.span] (by simp)
    exact ⟨outer, holds, nested⟩
  | @binary o x u v l r _ _ _ _ _ token _ ihl ihr =>
    obtain ⟨left, nestedl⟩ := ihl row.left
    obtain ⟨right, nestedr⟩ := ihr row.right.tail
    have op := row.within x (by simp)
    obtain ⟨outer, holds⟩ := row.node (by simp) (.cons left (.cons op (.cons right .nil))) rfl rfl
      _ (List.Sublist.refl _)
    have named := row.seen x (by simp)
    rw [token] at named
    exact ⟨outer, holds, named, nestedl, nestedr⟩
  | up _ ih => exact ih row

mutual

/-- The spans of a statement are nested, and its own lies within its lexemes. -/
theorem Statement.nested {w : List Lexeme} {s : Stmt} {l : Nat} (h : Statement w s l)
    (row : LexemeRow seen w) : s.span.Within w ∧ s.Nested seen := by
  -- `node` is told where the parts lie in the row, and which of them are nodes themselves
  match h with
  | @Statement.print x w e _ _ _ he =>
    have first := row.within x (by simp)
    obtain ⟨value, nested⟩ := he.nested row.tail
    obtain ⟨outer, holds⟩ := row.node (by simp) (.cons first (.cons value .nil)) rfl rfl
      [e.span] (by simp)
    exact ⟨outer, holds, nested⟩
  | @Statement.declare x y z name w e _ _ _ hy _ he =>
    have first := row.within x (by simp)
    have ident := row.within y (by simp)
    have che := row.within z (by simp)
    obtain ⟨value, nested⟩ := he.nested row.tail.tail.tail
    obtain ⟨outer, holds⟩ := row.node (by simp)
      (.cons first (.cons ident (.cons che (.cons value .nil)))) rfl rfl [y.span, e.span] (by simp)
    have named := row.seen y (by simp)
    rw [hy] at named
    exact ⟨outer, holds, named, nested⟩
  | @Statement.assign y z name w e _ _ hy _ he =>
    have ident := row.within y (by simp)
    have che := row.within z (by simp)
    obtain ⟨value, nested⟩ := he.nested row.tail.tail
    obtain ⟨outer, holds⟩ := row.node (by simp) (.cons ident (.cons che (.cons value .nil))) rfl rfl
      [y.span, e.span] (by simp)
    have named := row.seen y (by simp)
    rw [hy] at named
    exact ⟨outer, holds, named, nested⟩
  | @Statement.branch x u v c yes _ _ _ _ hc hy =>
    have first := row.within x (by simp)
    obtain ⟨condition, nestedc⟩ := hc.nested row.tail.left
    obtain ⟨block, nestedy⟩ := hy.nested row.tail.right
    obtain ⟨outer, holds⟩ := row.node (by simp) (.cons first (.cons condition (.cons block .nil)))
      rfl rfl [c.span, yes.span] (by simp)
    exact ⟨outer, holds, nestedc, nestedy⟩
  | @Statement.branchElse x y u v w c yes no _ _ _ _ _ hc hy _ hn =>
    have first := row.within x (by simp)
    have other := row.within y (by simp)
    obtain ⟨condition, nestedc⟩ := hc.nested row.tail.left
    obtain ⟨block, nestedy⟩ := hy.nested row.tail.right.left
    obtain ⟨block', nestedn⟩ := hn.nested row.tail.right.right.tail
    obtain ⟨outer, holds⟩ := row.node (by simp)
      (.cons first (.cons condition (.cons block (.cons other (.cons block' .nil))))) rfl rfl
      [c.span, yes.span, no.span] (by simp)
    exact ⟨outer, holds, nestedc, nestedy, nestedn⟩
  | @Statement.loop x y u v body c _ _ _ _ hb _ hc =>
    have first := row.within x (by simp)
    have jyaSudhi := row.within y (by simp)
    obtain ⟨block, nestedb⟩ := hb.nested row.tail.left
    obtain ⟨condition, nestedc⟩ := hc.nested row.tail.right.tail
    obtain ⟨outer, holds⟩ := row.node (by simp)
      (.cons first (.cons block (.cons jyaSudhi (.cons condition .nil)))) rfl rfl
      [body.span, c.span] (by simp)
    exact ⟨outer, holds, nestedb, nestedc⟩
  | @Statement.leave x hx =>
    have named := row.seen x (by simp)
    rw [hx] at named
    exact ⟨row.within x (by simp), named⟩
  | @Statement.again x hx =>
    have named := row.seen x (by simp)
    rw [hx] at named
    exact ⟨row.within x (by simp), named⟩
  | .block hb => exact hb.nested row

theorem Braced.nested {w : List Lexeme} {b : Block} {l : Nat} (h : Braced w b l)
    (row : LexemeRow seen w) : b.span.Within w ∧ b.Nested seen := by
  match h with
  | @Braced.intro x y w body _ _ hs _ =>
    obtain ⟨ws, cut, pieces, nested⟩ := hs.nested row.tail.left
    obtain ⟨outer, holds⟩ := row.enclosing cut pieces
    exact ⟨outer, holds, nested⟩

/-- The spans of statements lie within the pieces of the lexemes that the statements are. -/
theorem Sequence.nested {w : List Lexeme} {body : List Stmt} {l : Nat} (h : Sequence w body l)
    (row : LexemeRow seen w) :
    ∃ ws : List (List Lexeme), ws.flatten = w ∧
      List.Forall₂ (fun w s => s.Within w) ws (body.map Stmt.span) ∧ allNested seen body := by
  match h with
  | .nil => exact ⟨[], rfl, .nil, trivial⟩
  | @Sequence.cons u v s body _ _ hs hv =>
    obtain ⟨first, nested⟩ := hs.nested row.left
    obtain ⟨ws, rfl, pieces, all⟩ := hv.nested row.right
    exact ⟨u :: ws, rfl, .cons first pieces, nested, all⟩

end

/-- The spans of a program are nested. -/
theorem Fenced.nested {w : List Lexeme} {p : Program} {l : Nat} (h : Fenced w p l)
    (row : LexemeRow seen w) : p.Nested seen := by
  rcases h with @⟨x, y, w, rest, body, _, _, hs, _⟩
  obtain ⟨ws, cut, pieces, nested⟩ := hs.nested row.tail.left
  -- what stands behind the last fence is no part of the program
  have fences : (x :: (w ++ [y])).Sublist (x :: (w ++ y :: rest)) := by simp
  obtain ⟨-, holds⟩ := (row.sublist fences).enclosing cut pieces
  exact ⟨holds, nested⟩

end Grammar

/-! ## Programs that were read -/

/-- The lexemes of a text that mean something to the grammar stand one behind the other, and each is
what stands in its range. -/
theorem lexemeRow_solid {text : String} (small : text.utf8ByteSize < 2 ^ 32) {xs : List Lexeme}
    (h : tokenize text = .ok xs) :
    LexemeRow (fun t s => ∃ x ∈ xs, x.token = t ∧ x.span = s ∧ slice text s.start s.stop = x.text)
      (solid xs) := by
  have tiles := tiles_tokenize text small xs h
  have all : LexemeRow (fun t s => ∃ x ∈ xs, x.token = t ∧ x.span = s ∧
      slice text s.start s.stop = x.text) xs :=
    ⟨fun x mem => ⟨x, mem, rfl, rfl, (tiles.slices x mem).2⟩,
      fun x mem => (tiles.slices x mem).1, tiles.ordered⟩
  exact all.sublist List.filter_sublist

/-- In a program that was read from a text in which offsets fit into 32 bits, the range of every
node contains those of its parts and, for an operation, that of its operator; these follow one
another without overlap, in the order in which the parts are written. The range of a literal, of a
name, of an operator, of a reading and of loop control is that of the lexeme with its token, whose
text is what stands there. -/
theorem spans_nest {text : String} (small : text.utf8ByteSize < 2 ^ 32) {p : Program}
    (h : Program.ofSource text = .ok p) :
    ∃ xs, tokenize text = .ok xs ∧
      p.Nested fun t s =>
        ∃ x ∈ xs, x.token = t ∧ x.span = s ∧ slice text s.start s.stop = x.text := by
  obtain ⟨xs, read, parsed⟩ := ofSource_eq_ok_iff.1 h
  obtain ⟨l, derived, -, -⟩ := fenced_of_ofLexemes parsed
  exact ⟨xs, read, derived.nested (lexemeRow_solid small read)⟩

/-- A loop whose condition is a sum of a difference in parentheses. -/
theorem spans_nest_parentheses :
    "kem bhai\nfarvu \x7b\n  a che -1\n\x7d jya sudhi 2 + (a - 3)\naavjo bhai\n".utf8ByteSize < 2 ^ 32 ∧
    ∃ p, Program.ofSource
        "kem bhai\nfarvu \x7b\n  a che -1\n\x7d jya sudhi 2 + (a - 3)\naavjo bhai\n" = .ok p ∧
      ∃ xs, tokenize
          "kem bhai\nfarvu \x7b\n  a che -1\n\x7d jya sudhi 2 + (a - 3)\naavjo bhai\n" = .ok xs ∧
        p.Nested fun t s => ∃ x ∈ xs, x.token = t ∧ x.span = s ∧
          slice "kem bhai\nfarvu \x7b\n  a che -1\n\x7d jya sudhi 2 + (a - 3)\naavjo bhai\n"
            s.start s.stop = x.text := by
  have sound : Program.Sound ⟨[.loop ⟨[.assign ⟨"a", .nowhere⟩ (.negate (.int 1 .nowhere) .nowhere)
      .nowhere], .nowhere⟩ (.binary .add (.int 2 .nowhere) (.binary .subtract
      (.var ⟨"a", .nowhere⟩) (.int 3 .nowhere) .nowhere .nowhere) .nowhere .nowhere) .nowhere],
      .nowhere⟩ := by
    refine ⟨?_, rfl⟩
    show ∀ t ∈ [Token.word .kemBhai, .word .farvu, .leftBrace, .ident "a", .word .che,
      .op .subtract, .int 1, .rightBrace, .word .jyaSudhi, .int 2, .op .add, .leftParen,
      .ident "a", .op .subtract, .int 3, .rightParen, .word .aavjoBhai], t.Proper
    have name : IsName "a" := ⟨⟨_, _, rfl, rfl⟩, List.all_eq_true.1 rfl, rfl⟩
    simp [Token.Proper, name]
  obtain ⟨p, read, -⟩ := (ofSource_layout sound).1 (by decide)
  exact ⟨by decide, p, read, spans_nest (by decide) read⟩

/-- The program that prints the number 1, on a line of its own. -/
theorem ofLexemes_print_one {x l y z m w e : Lexeme} (hx : x.token = .word .kemBhai)
    (hl : l.token = .newline) (hy : y.token = .word .bhaiBol) (hz : z.token = .int 1)
    (hm : m.token = .newline) (hw : w.token = .word .aavjoBhai) (he : e.token = .eof) :
    Program.ofLexemes [x, l, y, z, m, w, e] =
      .ok ⟨[.print (.int 1 z.span) (y.span.upTo z.span)], x.span.upTo w.span⟩ := by
  have leaf : z.leaf? = some (.int 1 z.span) := by
    unfold Lexeme.leaf?
    rw [hz]
  have value := Expression.weaken (.leaf leaf) (Tier.lowest_le _)
  have derived : Fenced (x :: ([y, z] ++ w :: [e])) _ _ :=
    .intro hx (.cons (.print hy value) .nil) hw
  have seen : solid [x, l, y, z, m, w, e] = x :: ([y, z] ++ w :: [e]) := by
    simp [solid, hx, hl, hy, hz, hm, hw, he]
  exact (ofLexemes_of_fenced (seen ▸ derived) rfl).1 (by decide)

/-- A number at the offset `2 ^ 32`, of which nothing is kept: the range of the printing does not
contain that of its value. -/
theorem spans_nest_too_long :
    ∃ text p, text = "kem bhai\nbhai bol " ++ blanks (2 ^ 32 - 18) ++ "1\naavjo bhai" ∧
      Program.ofSource text = .ok p ∧ ∀ seen, ¬ p.Nested seen := by
  have none : ∀ d ∈ ([] : List Char), isBlank d = true := List.forall_mem_nil _
  have accepted : ∀ n, ∃ s t u : Span, t.start = 9 ∧
      s.start = UInt32.ofNat ((Mark.origin.advance "kem bhai\nbhai bol".toList).advance
        (' ' :: List.replicate n ' ')).offset ∧
      Program.ofSource ("kem bhai\nbhai bol " ++ blanks n ++ "1\naavjo bhai") =
        .ok ⟨[.print (.int 1 s) (t.upTo s)], u⟩ := by
    intro n
    have gap : ∀ d ∈ ' ' :: List.replicate n ' ', isBlank d = true :=
      List.forall_mem_cons.2 ⟨rfl, isBlank_of_mem_replicate⟩
    have fence : scan 'k' ("em bhai\nbhai bol ".toList ++
        (List.replicate n ' ' ++ "1\naavjo bhai".toList)) =
        .token (.word .kemBhai) "kem bhai".toList ("\nbhai bol ".toList ++
          (List.replicate n ' ' ++ "1\naavjo bhai".toList)) := rfl
    have line : ∀ cs, scan '\n' cs = .token .newline ['\n'] cs := fun _ => rfl
    have word : scan 'b' ("hai bol ".toList ++ (List.replicate n ' ' ++ "1\naavjo bhai".toList)) =
        .token (.word .bhaiBol) "bhai bol".toList
          (' ' :: List.replicate n ' ' ++ "1\naavjo bhai".toList) := rfl
    have one : scan '1' "\naavjo bhai".toList =
        .token (.int 1) ['1'] "\naavjo bhai".toList := rfl
    have last : scan 'a' "avjo bhai".toList =
        .token (.word .aavjoBhai) "aavjo bhai".toList [] := rfl
    have reads := Reads.token (m := .origin) none rfl fence (.token none rfl (line _)
      (.token none rfl word (.token gap rfl one (.token none rfl (line _)
        (.token none rfl last (.done none))))))
    have cut : ("kem bhai\nbhai bol " ++ blanks n ++ "1\naavjo bhai").toList =
        "kem bhai\nbhai bol ".toList ++ (List.replicate n ' ' ++ "1\naavjo bhai".toList) := by
      rw [String.toList_append, String.toList_append, toList_blanks, List.append_assoc]
    have read := Reads.tokenize reads cut
    refine ⟨_, _, _, ?_, ?_, ofSource_eq_ok_iff.2
      ⟨_, read, ofLexemes_print_one rfl rfl rfl rfl rfl rfl rfl⟩⟩
    · rfl
    · rfl
  obtain ⟨s, t, u, start, place, read⟩ := accepted (2 ^ 32 - 18)
  refine ⟨_, _, rfl, read, fun seen nested => ?_⟩
  have holds : (t.upTo s).Holds [s] := nested.2.1.1
  have le : t.start ≤ s.start := (holds.inside s List.mem_cons_self).1
  have zero : UInt32.ofNat (2 ^ 32) = 0 := by decide
  have offset : ((Mark.origin.advance "kem bhai\nbhai bol".toList).advance
      (' ' :: List.replicate (2 ^ 32 - 18) ' ')).offset = 2 ^ 32 := by
    rw [Mark.offset_advance, byteLength_cons, byteLength_replicate_blank]
    rfl
  rw [start, place, offset, zero] at le
  have lt : ¬ (9 : UInt32) ≤ 0 := by decide
  exact lt le

end GujaratiScript
