import GujaratiScript.Proofs.Layout.Behaviour
import GujaratiScript.Proofs.Spelling.Breaks
import GujaratiScript.Proofs.Spelling.Writing
import GujaratiScript.Shell.Loops

/-!
# Fragments in turn

Two fragments that are programs between the fences are one program between the fences if a line
break joins them: its statements are those of the one and those of the other, and so it does what
the one does and then, on the same machine, what the other does.

* `Grammar.Sequence.moved`, `Grammar.Fenced.moved` : derivations do not depend on where a text
  begins;
* `Grammar.Fenced.prepend` : statements in front of those of a program;
* `tokenize_fenced` : the lexemes of a text between the fences;
* `fragments_run_in_turn` : the main statement.
-/

namespace GujaratiScript

/-! ## Derivations further down -/

/-- A fault of a run with `k` more bytes and `n` more lines before it. -/
def RunFault.moved (k n : Nat) (fault : RunFault) : RunFault :=
  ⟨fault.cause, fault.span.moved k n⟩

/-- A fault of names as they are, further down. -/
theorem RunFault.relabel_moved (k n : Nat) :
    RunFault.relabel id (Span.moved k n) = RunFault.moved k n := by
  funext fault
  obtain ⟨cause, span⟩ := fault
  cases cause <;> rfl

/-- The span of a relabelled expression. -/
theorem Expr.span_relabel (ρ : String → String) (g : Span → Span) (e : Expr) :
    (e.relabel ρ g).span = g e.span := by
  cases e <;> rfl

/-- The span of a relabelled block. -/
theorem Block.span_relabel (ρ : String → String) (g : Span → Span) (b : Block) :
    (b.relabel ρ g).span = g b.span := by
  cases b
  rfl

/-- Trees that differ in places only are the same without them. -/
theorem Expr.bare_relabel (g : Span → Span) (e : Expr) : (e.relabel id g).bare = e.bare := by
  induction e with
  | negate e _ ih => simp only [relabel, bare, ih]
  | binary o l r _ _ ihl ihr => simp only [relabel, bare, ihl, ihr]
  | _ => rfl

mutual

/-- Other spans leave the bare statement as it is. -/
theorem Stmt.bare_relabel (g : Span → Span) (s : Stmt) : (s.relabel id g).bare = s.bare := by
  match s with
  | .print e _ | .declare _ e _ | .assign _ e _ =>
    simp only [Stmt.relabel, Stmt.bare, e.bare_relabel, id]
  | .branch c yes none _ =>
    simp only [Stmt.relabel, Stmt.bare, c.bare_relabel, yes.bare_relabel]
  | .branch c yes (some no) _ =>
    simp only [Stmt.relabel, Stmt.bare, c.bare_relabel, yes.bare_relabel, no.bare_relabel]
  | .loop body c _ => simp only [Stmt.relabel, Stmt.bare, c.bare_relabel, body.bare_relabel]
  | .leave _ | .again _ => rfl
  | .block b => simp only [Stmt.relabel, Stmt.bare, b.bare_relabel]

/-- Other spans leave the bare block as it is. -/
theorem Block.bare_relabel (g : Span → Span) (b : Block) : (b.relabel id g).bare = b.bare := by
  match b with
  | ⟨body, _⟩ => simp only [Block.relabel, Block.bare, allBare_relabel g body]

/-- Other spans leave the bare statements as they are. -/
theorem allBare_relabel (g : Span → Span) (body : List Stmt) :
    allBare (relabelAll id g body) = allBare body := by
  match body with
  | [] => rfl
  | s :: rest => simp only [relabelAll, allBare, s.bare_relabel, allBare_relabel g rest]

end

/-- The span ends so early that `k` more bytes before it fit into 32 bits as well. -/
def Span.Fits (k : Nat) (s : Span) : Prop := (s.stop : Nat) + k < 2 ^ 32

section Moved

variable {k n : Nat} {s t : Span}

/-- A span that reaches from one to another ends where the other does. -/
theorem Span.Fits.upTo (hs : s.Fits k) (ht : t.Fits k) : (s.upTo t).Fits k := by
  by_cases le : t.stop ≤ s.stop
  · rw [upTo_of_le le]
    exact hs
  · rw [upTo_of_lt (UInt32.not_le.1 le)]
    exact ht

/-- Where a span fits, its end is moved without wrapping. -/
theorem Span.Fits.stop_moved (h : s.Fits k) : ((s.moved k n).stop : Nat) = s.stop + k := by
  have stop : (s.moved k n).stop.toNat = (s.stop.toNat + (UInt32.ofNat k).toNat) % 2 ^ 32 :=
    UInt32.toNat_add _ _
  unfold Fits at h
  rw [stop, UInt32.toNat_ofNat_of_lt' (show _ < 2 ^ 32 by omega), Nat.mod_eq_of_lt h]

/-- Of two spans that fit, the one that ends later does so further down. -/
theorem Span.upTo_moved (hs : s.Fits k) (ht : t.Fits k) :
    (s.upTo t).moved k n = (s.moved k n).upTo (t.moved k n) := by
  have stops := hs.stop_moved (n := n)
  have stopt := ht.stop_moved (n := n)
  by_cases le : t.stop ≤ s.stop
  · have le' : (t.moved k n).stop ≤ (s.moved k n).stop := by
      rw [UInt32.le_iff_toNat_le] at le ⊢
      omega
    rw [upTo_of_le le, upTo_of_le le']
  · rw [UInt32.not_le] at le
    have lt' : (s.moved k n).stop < (t.moved k n).stop := by
      rw [UInt32.lt_iff_toNat_lt] at le ⊢
      omega
    rw [upTo_of_lt le, upTo_of_lt lt']
    rfl

/-- A span up to an expression is moved with its ends. -/
theorem Span.moved_upTo_expr {e : Expr} (hs : s.Fits k) (he : e.span.Fits k) :
    (s.upTo e.span).moved k n = (s.moved k n).upTo (e.relabel id (Span.moved k n)).span := by
  rw [Expr.span_relabel, Span.upTo_moved hs he]

/-- A span up to a block is moved with its ends. -/
theorem Span.moved_upTo_block {b : Block} (hs : s.Fits k) (hb : b.span.Fits k) :
    (s.upTo b.span).moved k n = (s.moved k n).upTo (b.relabel id (Span.moved k n)).span := by
  rw [Block.span_relabel, Span.upTo_moved hs hb]

variable (k n)

/-- A leaf is read from its lexeme, also further down. -/
theorem Lexeme.leaf?_moved (x : Lexeme) :
    (x.moved k n).leaf? = x.leaf?.map (Expr.relabel id (Span.moved k n)) := by
  obtain ⟨t, text, span⟩ := x
  cases t with
  | word w => cases w <;> rfl
  | _ => rfl

/-- All lexemes fit. -/
def LexemesFit (w : List Lexeme) : Prop := ∀ x ∈ w, x.span.Fits k

/-- `e'` is the expression `e`, of the lexemes `w`, further down: the places are those of `e`, moved,
unless there is one that does not fit. -/
structure Expr.FurtherDown (w : List Lexeme) (e e' : Expr) : Prop where
  bare : e'.bare = e.bare
  moved : LexemesFit k w → e' = e.relabel id (Span.moved k n) ∧ e.span.Fits k

/-- `s'` is the statement `s`, of the lexemes `w`, further down. -/
structure Stmt.FurtherDown (w : List Lexeme) (s s' : Stmt) : Prop where
  bare : s'.bare = s.bare
  moved : LexemesFit k w → s' = s.relabel id (Span.moved k n)

/-- `b'` is the block `b`, of the lexemes `w`, further down. -/
structure Block.FurtherDown (w : List Lexeme) (b b' : Block) : Prop where
  bare : b'.bare = b.bare
  moved : LexemesFit k w → b' = b.relabel id (Span.moved k n) ∧ b.span.Fits k

/-- `body'` are the statements `body`, of the lexemes `w`, further down. -/
structure AllFurtherDown (w : List Lexeme) (body body' : List Stmt) : Prop where
  bare : allBare body' = allBare body
  moved : LexemesFit k w → body' = relabelAll id (Span.moved k n) body

end Moved

namespace Grammar

variable (k n : Nat)

/-- An expression is derived as well further down. -/
theorem Expression.moved {t : Tier} {w : List Lexeme} {e : Expr} {links levels : Nat}
    (h : Expression t w e links levels) :
    ∃ e', Expression t (w.map (Lexeme.moved k n)) e' links levels ∧ e.FurtherDown k n w e' := by
  induction h with
  | @leaf x e leaf =>
    have leaf' : (x.moved k n).leaf? = some (e.relabel id (Span.moved k n)) := by
      rw [Lexeme.leaf?_moved, leaf]
      rfl
    refine ⟨_, .leaf leaf', e.bare_relabel _, fun fits => ⟨rfl, ?_⟩⟩
    rw [Lexeme.span_of_leaf? leaf]
    exact fits x List.mem_cons_self
  | parens hx _ hy ih =>
    obtain ⟨e', he, bare, moved⟩ := ih
    rw [List.map_cons, List.map_append]
    refine ⟨e', .parens hx he hy, bare, fun fits => ?_⟩
    exact moved (List.forall_mem_append.1 (List.forall_mem_cons.1 fits).2).1
  | @negate x w e _ _ hx _ ih =>
    obtain ⟨e', inner, bare, moved⟩ := ih
    refine ⟨_, .negate hx inner, congrArg (Expr.negate · .nowhere) bare, fun fits => ?_⟩
    obtain ⟨hx, hw⟩ := List.forall_mem_cons.1 fits
    obtain ⟨rfl, he⟩ := moved hw
    rw [Expr.relabel, Span.moved_upTo_expr hx he]
    exact ⟨rfl, hx.upTo he⟩
  | @binary o x u v l r _ _ _ _ _ hx _ ihl ihr =>
    obtain ⟨l', left, barel, movedl⟩ := ihl
    obtain ⟨r', right, barer, movedr⟩ := ihr
    rw [List.map_append, List.map_cons]
    have bare := congrArg₂ (Expr.binary o · · .nowhere .nowhere) barel barer
    refine ⟨_, .binary left hx right, bare, fun fits => ?_⟩
    obtain ⟨hu, hv⟩ := List.forall_mem_append.1 fits
    obtain ⟨rfl, hl⟩ := movedl hu
    obtain ⟨rfl, hr⟩ := movedr (List.forall_mem_cons.1 hv).2
    rw [Expr.relabel, Span.moved_upTo_expr hl hr, Expr.span_relabel]
    exact ⟨rfl, hl.upTo hr⟩
  | up _ ih =>
    obtain ⟨e', he, down⟩ := ih
    exact ⟨e', .up he, down⟩

mutual

/-- A statement is derived as well further down. -/
theorem Statement.moved {w : List Lexeme} {s : Stmt} {levels : Nat} (h : Statement w s levels) :
    ∃ s', Statement (w.map (Lexeme.moved k n)) s' levels ∧ s.FurtherDown k n w s' := by
  -- the parts are moved by recursion; the whole reaches from its first lexeme to its last part
  match h with
  | .print hx he =>
    obtain ⟨e', value, bare, moved⟩ := he.moved k n
    refine ⟨_, .print hx value, congrArg (Stmt.print · .nowhere) bare, fun fits => ?_⟩
    obtain ⟨hx, hw⟩ := List.forall_mem_cons.1 fits
    obtain ⟨rfl, he⟩ := moved hw
    rw [Stmt.relabel, Span.moved_upTo_expr hx he]
    rfl
  | .declare hx hy hz he =>
    obtain ⟨e', value, bare, moved⟩ := he.moved k n
    refine ⟨_, .declare hx hy hz value, congrArg (Stmt.declare _ · .nowhere) bare, fun fits => ?_⟩
    obtain ⟨hx, hw⟩ := List.forall_mem_cons.1 fits
    obtain ⟨rfl, he⟩ := moved (List.forall_mem_cons.1 (List.forall_mem_cons.1 hw).2).2
    rw [Stmt.relabel, Span.moved_upTo_expr hx he]
    rfl
  | .assign hy hz he =>
    obtain ⟨e', value, bare, moved⟩ := he.moved k n
    refine ⟨_, .assign hy hz value, congrArg (Stmt.assign _ · .nowhere) bare, fun fits => ?_⟩
    obtain ⟨hy, hw⟩ := List.forall_mem_cons.1 fits
    obtain ⟨rfl, he⟩ := moved (List.forall_mem_cons.1 hw).2
    rw [Stmt.relabel, Span.moved_upTo_expr hy he]
    rfl
  | .branch hx he hb =>
    obtain ⟨e', condition, baree, movede⟩ := he.moved k n
    obtain ⟨b', block, bareb, movedb⟩ := hb.moved
    rw [List.map_cons, List.map_append]
    have bare := congrArg₂ (Stmt.branch · · none .nowhere) baree bareb
    refine ⟨_, .branch hx condition block, bare, fun fits => ?_⟩
    obtain ⟨hx, hw⟩ := List.forall_mem_cons.1 fits
    obtain ⟨hu, hv⟩ := List.forall_mem_append.1 hw
    obtain ⟨rfl, -⟩ := movede hu
    obtain ⟨rfl, hb⟩ := movedb hv
    rw [Stmt.relabel, Span.moved_upTo_block hx hb]
    rfl
  | .branchElse hx he hb hy hc =>
    obtain ⟨e', condition, baree, movede⟩ := he.moved k n
    obtain ⟨b', block, bareb, movedb⟩ := hb.moved
    obtain ⟨c', block', barec, movedc⟩ := hc.moved
    rw [List.map_cons, List.map_append, List.map_append, List.map_cons]
    refine ⟨_, .branchElse hx condition block hy block', ?_, fun fits => ?_⟩
    · simp only [Stmt.bare, baree, bareb, barec]
    · obtain ⟨hx, hw⟩ := List.forall_mem_cons.1 fits
      obtain ⟨hu, hw⟩ := List.forall_mem_append.1 hw
      obtain ⟨hv, hw⟩ := List.forall_mem_append.1 hw
      obtain ⟨rfl, -⟩ := movede hu
      obtain ⟨rfl, -⟩ := movedb hv
      obtain ⟨rfl, hc⟩ := movedc (List.forall_mem_cons.1 hw).2
      rw [Stmt.relabel, Span.moved_upTo_block hx hc]
      rfl
  | .loop hx hb hy he =>
    obtain ⟨b', block, bareb, movedb⟩ := hb.moved
    obtain ⟨e', condition, baree, movede⟩ := he.moved k n
    rw [List.map_cons, List.map_append, List.map_cons]
    have bare := congrArg₂ (Stmt.loop · · .nowhere) bareb baree
    refine ⟨_, .loop hx block hy condition, bare, fun fits => ?_⟩
    obtain ⟨hx, hw⟩ := List.forall_mem_cons.1 fits
    obtain ⟨hu, hv⟩ := List.forall_mem_append.1 hw
    obtain ⟨rfl, -⟩ := movedb hu
    obtain ⟨rfl, he⟩ := movede (List.forall_mem_cons.1 hv).2
    rw [Stmt.relabel, Span.moved_upTo_expr hx he]
    rfl
  | .leave hx => exact ⟨_, .leave hx, rfl, fun _ => rfl⟩
  | .again hx => exact ⟨_, .again hx, rfl, fun _ => rfl⟩
  | .block hb =>
    obtain ⟨b', block, bare, moved⟩ := hb.moved
    exact ⟨_, .block block, congrArg Stmt.block bare, fun fits => congrArg Stmt.block (moved fits).1⟩

/-- A block further down. -/
theorem Braced.moved {w : List Lexeme} {b : Block} {levels : Nat} (h : Braced w b levels) :
    ∃ b', Braced (w.map (Lexeme.moved k n)) b' levels ∧ b.FurtherDown k n w b' := by
  match h with
  | .intro hx hs hy =>
    obtain ⟨body', inner, bare, moved⟩ := hs.moved
    rw [List.map_cons, List.map_append]
    refine ⟨_, .intro hx inner hy, congrArg (Block.mk · .nowhere) bare, fun fits => ?_⟩
    obtain ⟨hx, hw⟩ := List.forall_mem_cons.1 fits
    obtain ⟨hw, hy⟩ := List.forall_mem_append.1 hw
    have last := hy _ List.mem_cons_self
    obtain rfl := moved hw
    rw [Block.relabel, Span.upTo_moved hx last]
    exact ⟨rfl, hx.upTo last⟩

/-- Statements in sequence further down: by induction on their derivation. -/
theorem Sequence.moved {w : List Lexeme} {body : List Stmt} {levels : Nat}
    (h : Sequence w body levels) :
    ∃ body', Sequence (w.map (Lexeme.moved k n)) body' levels ∧
      AllFurtherDown k n w body body' := by
  match h with
  | .nil => exact ⟨_, .nil, rfl, fun _ => rfl⟩
  | .cons hs hv =>
    obtain ⟨s', hs, bare, moved⟩ := hs.moved
    obtain ⟨body', hv, all, allMoved⟩ := hv.moved
    rw [List.map_append]
    refine ⟨_, .cons hs hv, congrArg₂ List.cons bare all, fun fits => ?_⟩
    obtain ⟨hu, hw⟩ := List.forall_mem_append.1 fits
    exact congrArg₂ List.cons (moved hu) (allMoved hw)

end

/-- Statements and further statements. -/
theorem Sequence.append {u v : List Lexeme} {body body' : List Stmt} {l m : Nat}
    (h : Sequence u body l) (h' : Sequence v body' m) :
    Sequence (u ++ v) (body ++ body') (max l m) := by
  match h with
  | .nil =>
    rw [Nat.zero_max]
    exact h'
  | .cons hs hv =>
    rw [List.append_assoc, Nat.max_assoc]
    exact .cons hs (hv.append h')

/-- The statements of a program are those up to the first of its lexemes that is the last fence. -/
theorem Fenced.inner {x y : Lexeme} {w rest : List Lexeme} {p : Program} {levels : Nat}
    (h : Fenced (x :: (w ++ y :: rest)) p levels) (hw : ∀ z ∈ w, z.token ≠ .word .aavjoBhai)
    (hy : y.token = .word .aavjoBhai) : Sequence w p.body levels := by
  generalize eq : x :: (w ++ y :: rest) = whole at h
  rcases h with @⟨_, y', w', rest', _, _, -, hs, hy'⟩
  have tail := (List.cons.inj eq).2
  have hw' : ∀ z ∈ w', z.token ≠ .word .aavjoBhai := by
    intro z mem last
    have inner := hs.inner z mem
    rw [last] at inner
    cases inner
  have same : w = w' := by
    have cut := congrArg (List.takeWhile fun z : Lexeme => z.token ≠ .word .aavjoBhai) tail
    rwa [List.takeWhile_append_of_pos (by simpa using hw),
      List.takeWhile_cons_of_neg (by simp [hy]),
      List.takeWhile_append_of_pos (by simpa using hw'),
      List.takeWhile_cons_of_neg (by simp [hy']), List.append_nil, List.append_nil] at cut
  rw [same]
  exact hs

/-- Statements in front of those of a program, which stand further down then. -/
theorem Fenced.prepend {x : Lexeme} {u v : List Lexeme} {body : List Stmt} {q : Program} {l m : Nat}
    (hu : Sequence u body l) (h : Fenced (x :: v) q m) :
    ∃ r body', Fenced (x :: (u ++ v.map (Lexeme.moved k n))) r (max l m) ∧
      r.body = body ++ body' ∧ AllFurtherDown k n v q.body body' := by
  generalize eq : x :: v = whole at h
  rcases h with @⟨_, y, w, rest, _, _, hx, hs, hy⟩
  obtain ⟨rfl, rfl⟩ := List.cons.inj eq
  obtain ⟨body', hs, bare, moved⟩ := hs.moved k n
  rw [List.map_append, List.map_cons, ← List.append_assoc]
  refine ⟨_, body', .intro hx (hu.append hs) hy, rfl, bare, fun fits => ?_⟩
  exact moved (List.forall_mem_append.1 fits).1

end Grammar

open Grammar

/-! ## Trees in turn -/

/-- The bare statements of two sequences one behind the other. -/
theorem allBare_append (xs ys : List Stmt) : allBare (xs ++ ys) = allBare xs ++ allBare ys := by
  induction xs with
  | nil => rfl
  | cons s xs ih => rw [List.cons_append, allBare, allBare, ih, List.cons_append]

/-- Loop control in two sequences one behind the other is placed if it is in both. -/
theorem allPlaced_append (inLoop : Bool) (xs ys : List Stmt) :
    allPlaced inLoop (xs ++ ys) = (allPlaced inLoop xs && allPlaced inLoop ys) := by
  induction xs with
  | nil => rfl
  | cons s xs ih => rw [List.cons_append, allPlaced, allPlaced, ih, Bool.and_assoc]

/-- Statements and further statements are run in turn. -/
theorem executeAll_append (rounds : Nat) (xs ys : List Stmt) :
    executeAll rounds (xs ++ ys) = executeAll rounds xs >>= fun _ => executeAll rounds ys := by
  induction xs with
  | nil => rfl
  | cons s xs ih =>
    rw [List.cons_append, executeAll, executeAll, ih, bind_assoc]
    congr 1
    funext flow
    cases flow with
    | completed => rfl
    | leave span | again span => rfl

/-! ## Fences -/

/-- A keyword is read as it is. -/
theorem tokenize_keyword (k : Keyword) :
    tokenize k.spelling =
      .ok [⟨.word k, k.spelling, .between .origin (Mark.origin.advance k.spelling.toList)⟩,
        ⟨.eof, "", .between (Mark.origin.advance k.spelling.toList)
          (Mark.origin.advance k.spelling.toList)⟩] := by
  have none : ∀ d ∈ ([] : List Char), isBlank d = true := List.forall_mem_nil _
  have last : Reads (Mark.origin.advance k.spelling.toList) [] _ := .done none
  have reads := last.spelling (t := .word k) trivial nofun (Token.endsBefore_tab _ (by simp))
  rw [List.append_nil, Token.spelling, String.ofList_toList] at reads
  exact tokenize_eq_ok_iff.2 reads

/-- The lexemes of the first fence and of the line break behind it. -/
def opening : List Lexeme :=
  [⟨.word .kemBhai, "kem bhai", ⟨0, 8, 1, 1⟩⟩, ⟨.newline, "\n", ⟨8, 9, 1, 9⟩⟩]

/-- The lexemes of a text between the fences, in terms of the text in front of the last fence. -/
theorem tokenize_fenced (text : String) :
    tokenize (fenced text) =
      match tokenize (text ++ "\n" ++ "aavjo bhai") with
      | .ok ys => .ok (opening ++ ys.map (Lexeme.moved 9 1))
      | .error fault => .error (fault.moved 9 1) := by
  have whole : fenced text = "kem bhai" ++ "\n" ++ (text ++ "\n" ++ "aavjo bhai") := by
    have left : "kem bhai\n" = "kem bhai" ++ "\n" := by decide
    have right : "\naavjo bhai" = "\n" ++ "aavjo bhai" := by decide
    rw [fenced, left, right, String.append_assoc, String.append_assoc, String.append_assoc,
      String.append_assoc]
  rw [whole]
  exact tokenize_append_break (tokenize_keyword .kemBhai) _

/-- The lexemes of a fenced text, from those of the text with the last fence only. -/
theorem exists_of_tokenize_fenced {text : String} {zs : List Lexeme}
    (h : tokenize (fenced text) = .ok zs) :
    ∃ ys, tokenize (text ++ "\n" ++ "aavjo bhai") = .ok ys ∧
      zs = opening ++ ys.map (Lexeme.moved 9 1) := by
  rw [tokenize_fenced] at h
  rcases later : tokenize (text ++ "\n" ++ "aavjo bhai") with fault | ys
  · rw [later] at h
    cases h
  · rw [later] at h
    cases h
    exact ⟨ys, rfl, rfl⟩

/-- Moving lexemes makes none of them a line break. -/
theorem solid_map_moved (k n : Nat) (xs : List Lexeme) :
    solid (xs.map (Lexeme.moved k n)) = (solid xs).map (Lexeme.moved k n) := List.filter_map

/-- A line break in front is left out. -/
theorem solid_lineBreak (m : Mark) (xs : List Lexeme) : solid (m.lineBreak :: xs) = solid xs := rfl

/-- Places that count two texts before them count them in either order. -/
theorem map_moved_moved (k n k' n' : Nat) (xs : List Lexeme) :
    (xs.map (Lexeme.moved k n)).map (Lexeme.moved k' n') =
      (xs.map (Lexeme.moved k' n')).map (Lexeme.moved k n) := by
  rw [List.map_map, List.map_map]
  congr 1
  funext x
  have swap : ∀ (a b c : UInt32), a + b + c = a + c + b := fun a b c => by
    rw [UInt32.add_assoc, UInt32.add_comm b, ← UInt32.add_assoc]
  simp only [Function.comp, Lexeme.moved, Span.moved, swap]

/-- What is a program between the fences and holds no last fence is read by itself, and its lexemes
are the statements of that program. -/
theorem sequence_of_fenced {text : String} {p : Program}
    (h : Program.ofSource (fenced text) = .ok p)
    (inner : ∀ xs, tokenize text = .ok xs → ∀ x ∈ xs, x.token ≠ .word .aavjoBhai) :
    ∃ xs l, tokenize text = .ok xs ∧
      Sequence ((solid (beforeEnd xs)).map (Lexeme.moved 9 1)) p.body l ∧
      l ≤ maxNesting ∧ allPlaced false p.body = true := by
  obtain ⟨_, read, parsed⟩ := ofSource_eq_ok_iff.1 h
  obtain ⟨ys, later, rfl⟩ := exists_of_tokenize_fenced read
  obtain ⟨xs, alone⟩ := exists_tokenize_of_append_break later (by decide)
  -- the lexemes of the text end at the last fence
  have last := tokenize_append_break alone Keyword.aavjoBhai.spelling
  rw [tokenize_keyword] at last
  obtain rfl := Except.ok.inj (later.symm.trans last)
  obtain ⟨l, derived, le, placed⟩ := fenced_of_ofLexemes parsed
  rw [solid_append, solid_map_moved, solid_append, List.map_append] at derived
  refine ⟨xs, l, alone, Fenced.inner derived ?_ rfl, le, placed⟩
  intro z mem
  obtain ⟨x, hx, rfl⟩ := List.mem_map.1 mem
  exact inner xs alone x (List.mem_filter.1 (List.mem_filter.1 hx).1).1

/-- In a text that fits, no lexeme ends behind the end. -/
theorem stop_le_of_mem_tokenize {text : String} (small : text.utf8ByteSize < 2 ^ 32)
    {xs : List Lexeme} (h : tokenize text = .ok xs) :
    ∀ x ∈ xs, (x.span.stop : Nat) ≤ text.utf8ByteSize := by
  intro x mem
  obtain ⟨init, rest, eq⟩ := List.append_of_mem mem
  obtain ⟨passed, gap, after, cut, -, -, -, stop⟩ := split_tokenize small h eq
  rw [stop, ← byteLength_toList, cut, byteLength_append _ after]
  exact Nat.le_add_right _ _

/-- Two fragments, joined by a line break, are a program if each of them is, and the first holds no
last fence: its statements are those of the one and those of the other, which stand further down. -/
theorem ofSource_fenced_append {a b : String} {p q : Program}
    (ha : Program.ofSource (fenced a) = .ok p) (hb : Program.ofSource (fenced b) = .ok q)
    (inner : ∀ xs, tokenize a = .ok xs → ∀ x ∈ xs, x.token ≠ .word .aavjoBhai) :
    ∃ r body', Program.ofSource (fenced (a ++ "\n" ++ b)) = .ok r ∧ r.body = p.body ++ body' ∧
      allBare body' = allBare q.body ∧
      ((fenced (a ++ "\n" ++ b)).utf8ByteSize < 2 ^ 32 →
        body' = relabelAll id (Span.moved (a.utf8ByteSize + 1) (a.toList.count '\n' + 1)) q.body) := by
  obtain ⟨xs, l, alone, statements, leA, placedA⟩ := sequence_of_fenced ha inner
  obtain ⟨_, readB, parsedB⟩ := ofSource_eq_ok_iff.1 hb
  obtain ⟨zs, laterB, rfl⟩ := exists_of_tokenize_fenced readB
  obtain ⟨m, derivedB, leB, placedB⟩ := fenced_of_ofLexemes parsedB
  -- the second fragment ends further down by the bytes of the first, and no lexeme ends later
  have fit : (fenced (a ++ "\n" ++ b)).utf8ByteSize < 2 ^ 32 →
      LexemesFit (a.utf8ByteSize + 1) (solid (zs.map (Lexeme.moved 9 1))) := by
    intro small x mem
    have size : (fenced (a ++ "\n" ++ b)).utf8ByteSize =
        (fenced b).utf8ByteSize + (a.utf8ByteSize + 1) := by
      simp only [fenced, String.utf8ByteSize_append]
      have line : "\n".utf8ByteSize = 1 := rfl
      omega
    have stop := stop_le_of_mem_tokenize (by omega) readB x
      (List.mem_append_right _ (List.mem_filter.1 mem).1)
    unfold Span.Fits
    omega
  rw [solid_append] at derivedB
  obtain ⟨r, body', derived, body, bare, moved⟩ :=
    derivedB.prepend (a.utf8ByteSize + 1) (a.toList.count '\n' + 1) statements
  -- the line break keeps the lexemes on its two sides apart, so the tokens are those of both
  have joined := tokenize_append_break alone (b ++ "\n" ++ "aavjo bhai")
  have assoc : a ++ "\n" ++ (b ++ "\n" ++ "aavjo bhai") =
      a ++ "\n" ++ b ++ "\n" ++ "aavjo bhai" := by
    simp only [String.append_assoc]
  have whole := tokenize_fenced (a ++ "\n" ++ b)
  rw [← assoc, joined, laterB] at whole
  refine ⟨r, body', ofSource_eq_ok_iff.2 ⟨_, whole, (ofLexemes_of_fenced ?_ ?_).1 (max_le leA leB)⟩,
    body, bare, fun small => moved (fit small)⟩
  · rw [solid_append, solid_map_moved, solid_append, List.map_append, solid_lineBreak,
      solid_map_moved, map_moved_moved, ← solid_map_moved 9 1 zs]
    exact derived
  · rw [body, allPlaced_append, placedA, ← allPlaced_bare, bare, allPlaced_bare, placedB]
    rfl

/-- Statements that differ in places only end alike, by faults that differ in places only. -/
theorem executeAll_congr {xs ys : List Stmt} (h : allBare xs = allBare ys) (rounds : Nat)
    (m : Machine) :
    (executeAll rounds xs m).map (fun o => (o.1.mapError RunFault.bare, o.2)) =
      (executeAll rounds ys m).map fun o => (o.1.mapError RunFault.bare, o.2) := by
  have left := Program.execute_bare ⟨xs, .nowhere⟩ rounds m
  have right := Program.execute_bare ⟨ys, .nowhere⟩ rounds m
  rw [show Program.bare ⟨xs, .nowhere⟩ = Program.bare ⟨ys, .nowhere⟩ from
    congrArg (Program.mk · .nowhere) h] at left
  exact left.symm.trans right

/-- Two fragments that are programs between the fences, the first of them without a last fence of
its own, are one program when a line break joins them. It has the statements of the one and those of
the other, and from every machine it does what the first program does and then, unless that has met
a fault, what the second does on the machine that the first has left. Only the places of faults of
the second count what stands before it now, if all offsets fit into 32 bits. -/
theorem fragments_run_in_turn {a b : String} {p q : Program}
    (ha : Program.ofSource (fenced a) = .ok p) (hb : Program.ofSource (fenced b) = .ok q)
    (inner : ∀ xs, tokenize a = .ok xs → ∀ x ∈ xs, x.token ≠ .word .aavjoBhai) :
    ∃ r, Program.ofSource (fenced (a ++ "\n" ++ b)) = .ok r ∧
      allBare r.body = allBare p.body ++ allBare q.body ∧
      ∀ rounds m,
        match p.execute rounds m with
        | none => r.execute rounds m = none
        | some (.error fault, m') => r.execute rounds m = some (.error fault, m')
        | some (.ok (), m') =>
          match q.execute rounds m' with
          | none => r.execute rounds m = none
          | some (.ok (), m'') => r.execute rounds m = some (.ok (), m'')
          | some (.error fault, m'') =>
            ∃ span, r.execute rounds m = some (.error ⟨fault.cause, span⟩, m'') ∧
              ((fenced (a ++ "\n" ++ b)).utf8ByteSize < 2 ^ 32 →
                span = fault.span.moved (a.utf8ByteSize + 1) (a.toList.count '\n' + 1)) := by
  obtain ⟨r, body', accepted, body, bare, moved⟩ := ofSource_fenced_append ha hb inner
  refine ⟨r, accepted, ?_, fun rounds m => ?_⟩
  · rw [body, allBare_append, bare]
  · unfold Program.execute
    rw [body, executeAll_append, Exec.bind_apply]
    rcases executeAll rounds p.body m with _ | ⟨fault | _, m'⟩
    · rfl
    · rfl
    · -- the second body differs in places only, so its run ends alike, and exactly so if all fit
      have alike := executeAll_congr bare rounds m'
      have exact_ := fun small => (congrArg (executeAll rounds · m') (moved small)).trans
        (executeAll_relabel _ rounds q.body m')
      dsimp only
      generalize executeAll rounds q.body m' = second at alike exact_
      rcases second with _ | ⟨fault | _, m''⟩
      · exact Option.map_eq_none_iff.1 alike
      · obtain ⟨⟨e, n⟩, ends, eq⟩ := Option.map_eq_some_iff.1 alike
        rcases e with ⟨cause, span⟩ | _
        · obtain ⟨same, rfl⟩ := Prod.mk.inj eq
          obtain rfl : cause = fault.cause := congrArg RunFault.cause (Except.error.inj same)
          refine ⟨span, ends, fun small => ?_⟩
          have again := ends.symm.trans (exact_ small)
          rw [RunFault.relabel_moved] at again
          exact congrArg RunFault.span (Except.error.inj (Prod.mk.inj (Option.some.inj again)).1)
        · cases (Prod.mk.inj eq).1
      · obtain ⟨⟨e, n⟩, ends, eq⟩ := Option.map_eq_some_iff.1 alike
        rcases e with _ | _
        · cases (Prod.mk.inj eq).1
        · obtain ⟨-, rfl⟩ := Prod.mk.inj eq
          exact ends

/-- Two statements with the words of the first fence across the seam. -/
theorem fragments_run_in_turn_seam :
    ∃ p q r, Program.ofSource (fenced "bhai bol kem") = .ok p ∧
      Program.ofSource (fenced "bhai che 1") = .ok q ∧
      Program.ofSource (fenced ("bhai bol kem" ++ "\n" ++ "bhai che 1")) = .ok r ∧
      allBare r.body = [.print (.var ⟨"kem", .nowhere⟩) .nowhere,
        .assign ⟨"bhai", .nowhere⟩ (.int 1 .nowhere) .nowhere] := by
  have fence : Lexes "aavjo bhai".toList [.word .aavjoBhai] :=
    Lexes.nil.token (c := 'a') rfl rfl nofun nofun
  have prints : Lexes "kem bhai\nbhai bol kem\naavjo bhai".toList
      (Program.tokens ⟨[.print (.var ⟨"kem", .nowhere⟩) .nowhere], .nowhere⟩) := by
    have name : Lexes "kem\naavjo bhai".toList [.ident "kem", .word .aavjoBhai] :=
      fence.line.token (c := 'k') rfl rfl nofun nofun
    have print : Lexes "bhai bol kem\naavjo bhai".toList
        [.word .bhaiBol, .ident "kem", .word .aavjoBhai] :=
      name.blank.token (c := 'b') rfl rfl nofun nofun
    exact print.line.token (c := 'k') rfl rfl nofun nofun
  have assigns : Lexes "kem bhai\nbhai che 1\naavjo bhai".toList
      (Program.tokens ⟨[.assign ⟨"bhai", .nowhere⟩ (.int 1 .nowhere) .nowhere], .nowhere⟩) := by
    have one : Lexes "1\naavjo bhai".toList [.int 1, .word .aavjoBhai] :=
      fence.line.token (c := '1') rfl rfl nofun nofun
    have che : Lexes "che 1\naavjo bhai".toList [.word .che, .int 1, .word .aavjoBhai] :=
      one.blank.token (c := 'c') rfl rfl nofun nofun
    have name : Lexes "bhai che 1\naavjo bhai".toList
        [.ident "bhai", .word .che, .int 1, .word .aavjoBhai] :=
      che.blank.token (c := 'b') rfl rfl nofun nofun
    exact name.line.token (c := 'k') rfl rfl nofun nofun
  have alone : Lexes "bhai bol kem".toList [.word .bhaiBol, .ident "kem"] := by
    have name : Lexes "kem".toList [.ident "kem"] :=
      Lexes.nil.token (c := 'k') rfl rfl nofun nofun
    exact name.blank.token (c := 'b') rfl rfl nofun nofun
  have inner : ∀ xs, tokenize "bhai bol kem" = .ok xs →
      ∀ x ∈ xs, x.token ≠ .word .aavjoBhai := by
    intro xs read x mem last
    obtain ⟨ys, read', tokens⟩ := alone.tokenize
    obtain rfl := Except.ok.inj (read.symm.trans read')
    have solid : x ∈ solid xs := List.mem_filter.2 ⟨mem, by simp [last]⟩
    have fence := List.mem_map_of_mem (f := Lexeme.token) solid
    rw [tokens, last] at fence
    simp at fence
  have first : fenced "bhai bol kem" = "kem bhai\nbhai bol kem\naavjo bhai" := by decide
  have second : fenced "bhai che 1" = "kem bhai\nbhai che 1\naavjo bhai" := by decide
  obtain ⟨p, accepted, bare⟩ := ofSource_of_lexes (first ▸ prints) rfl (by decide)
  obtain ⟨q, accepted', bare'⟩ := ofSource_of_lexes (second ▸ assigns) rfl (by decide)
  obtain ⟨r, joined, body, -⟩ := fragments_run_in_turn accepted accepted' inner
  refine ⟨p, q, r, accepted, accepted', joined, body.trans ?_⟩
  exact congrArg₂ (· ++ ·) (congrArg Program.body bare) (congrArg Program.body bare')

end GujaratiScript
