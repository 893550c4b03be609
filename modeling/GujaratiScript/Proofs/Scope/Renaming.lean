import GujaratiScript.Proofs.Run.Relabel

/-!
# Renaming a variable

Names are looked up while a program runs, frame by frame. Nevertheless a declared variable may have
another name if nothing in its block has that name yet: from its declaration on, the frame of the
block binds the new name where it bound the old one, and so do the frames opened inside, while the
frames outside are the same.

* `ScopeChain.Renamed` : this relation between the scopes of the two runs;
* `ScopeChain.Renamed.resolveFrom` : both names are found in the same frame;
* `ScopeChain.simulation_renamed` : every operation on names keeps to the relation;
* `runs_respect_renaming` : the main statement.
-/

namespace GujaratiScript

open Exec

/-- The name `y` in place of `x`. -/
def rename (x y name : String) : String := if name = x then y else name

/-- Names other than the new one are kept apart. -/
theorem rename_eq_iff {x y name name' : String} (h : name ≠ y) (h' : name' ≠ y) :
    rename x y name = rename x y name' ↔ name = name' := by
  unfold rename
  split <;> split
  · rename_i eq eq'
    exact iff_of_true rfl (eq.trans eq'.symm)
  · rename_i eq ne
    exact iff_of_false (Ne.symm h') fun same => ne (same ▸ eq)
  · rename_i ne eq
    exact iff_of_false h fun same => ne (same.trans eq)
  · rfl

namespace ScopeChain

/-! ## Looking up a name -/

/-- The link of a frame that is there. -/
theorem getElem?_links {s : ScopeChain} {i : Nat} (h : i < s.frames.size) :
    s.links[i]? = some s.frames[i].outer := by
  rw [links, Array.getElem?_map, Array.getElem?_eq_getElem h]
  rfl

/-- The value of a name is the one in the frame where it is found. -/
theorem get?_eq_bind (s : ScopeChain) (name : String) :
    s.get? name = ((s.resolve name).map Fin.val).bind fun i => s.binding? i name := by
  unfold get?
  rcases s.resolve name with _ | j
  · rfl
  · exact (binding?_eq_getElem j.isLt name).symm

/-- An assignment is made in the frame where the name is found. -/
theorem assign_eq (s : ScopeChain) (name : String) (v : Value) :
    s.assign name v =
      match (s.resolve name).map Fin.val with
      | some i => .ok (s.modify i fun b => b.set name v)
      | none => .error .undefined := by
  unfold assign
  rcases s.resolve name with _ | j <;> rfl

/-! ## Scopes with the new name -/

/-- The scopes `t` are the scopes `s`, but that `y` stands for `x` in frame `k` and all frames that
were opened inside. -/
structure Renamed (x y : String) (k : Nat) (s t : ScopeChain) : Prop where
  links : t.links = s.links
  current : t.current = s.current
  inside : k ≤ s.current
  outer : ∀ i < k, t.frames[i]? = s.frames[i]?
  inner : ∀ i, k ≤ i → ∀ name, name ≠ y → t.binding? i (rename x y name) = s.binding? i name
  /-- The old name does not get out of these frames. -/
  bound : (s.binding? k x).isSome = true
  nested : ∀ i, k < i → ∀ link, s.links[i]? = some link → ∃ j, link = some j ∧ k ≤ j

namespace Renamed

variable {x y name : String} {k : Nat} {s t s' t' : ScopeChain}

/-- Renamed scopes have as many frames. -/
theorem size (h : Renamed x y k s t) : t.frames.size = s.frames.size := by
  rw [← size_links, h.links, size_links]

/-- Further out, all names but the old one are bound as they were. -/
theorem binding? (h : Renamed x y k s t) (ne : name ≠ y) {i : Nat} (sees : k ≤ i ∨ name ≠ x) :
    t.binding? i (rename x y name) = s.binding? i name := by
  by_cases le : k ≤ i
  · exact h.inner i le name ne
  · have other : name ≠ x := sees.resolve_left le
    unfold ScopeChain.binding?
    rw [h.outer i (Nat.not_le.1 le), rename, if_neg other]

/-- A name is found in the frame in which the name it is replaced by is found; for the old name this
is no frame further out. -/
theorem resolveFrom (h : Renamed x y k s t) (ne : name ≠ y) (i : Nat) (hs : i < s.frames.size)
    (ht : i < t.frames.size) (sees : k ≤ i ∨ name ≠ x) :
    (t.resolveFrom (rename x y name) i ht).map Fin.val =
        (s.resolveFrom name i hs).map Fin.val ∧
      ∀ j, s.resolveFrom name i hs = some j → k ≤ j.val ∨ name ≠ x := by
  -- the search goes outwards in both in the same way, and meets the old name in frame `k` at last
  induction i using Nat.strongRecOn with
  | ind i ih =>
    have has : t.frames[i].bindings.has (rename x y name) = s.frames[i].bindings.has name := by
      rw [Bindings.has_eq_isSome, Bindings.has_eq_isSome, ← binding?_eq_getElem ht,
        ← binding?_eq_getElem hs, h.binding? ne sees]
    have link : t.frames[i].outer = s.frames[i].outer := by
      have same := congrArg (·[i]?) h.links
      rw [getElem?_links ht, getElem?_links hs] at same
      exact Option.some.inj same
    rw [ScopeChain.resolveFrom, ScopeChain.resolveFrom, has]
    by_cases here : s.frames[i].bindings.has name = true
    · rw [if_pos here, if_pos here]
      refine ⟨rfl, ?_⟩
      rintro j ⟨⟩
      exact sees
    · rw [if_neg here, if_neg here]
      split
      · rename_i none
        rw [link] at none
        split
        · refine ⟨rfl, ?_⟩
          rintro j ⟨⟩
        · rename_i j some
          rw [none] at some
          cases some
      · rename_i j some
        rw [link] at some
        split
        · rename_i none
          rw [none] at some
          cases some
        · rename_i j' some'
          obtain rfl : j' = j := Option.some.inj (some'.symm.trans some)
          refine ih j' (s.outward i hs j' some) _ _ ?_
          by_cases old : name = x
          · -- the old name is bound in frame `k`, so that is not the frame that was left
            have le : k ≤ i := sees.resolve_right (not_not_intro old)
            have lt : k < i := by
              refine Nat.lt_of_le_of_ne le ?_
              rintro rfl
              rw [Bindings.has_eq_isSome, ← binding?_eq_getElem hs, old] at here
              exact here h.bound
            obtain ⟨l, eq, inside⟩ := h.nested i lt _ (getElem?_links hs)
            rw [some] at eq
            cases eq
            exact .inl inside
          · exact .inr old

/-- A name other than the new one is found in the same frame, or not at all. -/
theorem resolve (h : Renamed x y k s t) (ne : name ≠ y) :
    (t.resolve (rename x y name)).map Fin.val = (s.resolve name).map Fin.val ∧
      ∀ j, s.resolve name = some j → k ≤ j.val ∨ name ≠ x := by
  have same : ∀ i (ht : i < t.frames.size) (ht' : t.current < t.frames.size), i = t.current →
      t.resolveFrom (rename x y name) t.current ht' = t.resolveFrom (rename x y name) i ht := by
    rintro i ht ht' rfl
    rfl
  have lt : s.current < t.frames.size := h.size ▸ s.current_lt
  unfold ScopeChain.resolve
  rw [same s.current lt t.current_lt h.current.symm]
  exact h.resolveFrom ne s.current s.current_lt lt (.inl h.inside)

/-- It has the same value. -/
theorem get? (h : Renamed x y k s t) (ne : name ≠ y) :
    t.get? (rename x y name) = s.get? name := by
  obtain ⟨same, sees⟩ := h.resolve ne
  rw [get?_eq_bind, get?_eq_bind, same]
  rcases eq : s.resolve name with _ | j
  · rfl
  · exact h.binding? ne (sees j eq)

/-! ## Changing a name -/

/-- The same value for a name and for the name it is replaced by, in the same frame. -/
theorem update (h : Renamed x y k s t) (ne : name ≠ y) {j : Nat} {v : Value}
    (hs : s'.links = s.links ∧ s'.current = s.current)
    (ht : t'.links = t.links ∧ t'.current = t.current)
    (bs : ∀ i n, s'.binding? i n = if i = j ∧ n = name then some v else s.binding? i n)
    (bt : ∀ i n, t'.binding? i n = if i = j ∧ n = rename x y name then some v
      else t.binding? i n)
    (outer : ∀ i < k, t'.frames[i]? = s'.frames[i]?) : Renamed x y k s' t' where
  links := by rw [ht.1, hs.1, h.links]
  current := by rw [ht.2, hs.2, h.current]
  inside := hs.2 ▸ h.inside
  outer := outer
  inner i le n other := by
    rw [bt, bs, h.inner i le n other]
    simp only [rename_eq_iff other ne]
  bound := by
    rw [bs]
    split
    · rfl
    · exact h.bound
  nested := hs.1 ▸ h.nested

/-- It is declared on both sides, or refused by both. -/
theorem declare (h : Renamed x y k s t) (ne : name ≠ y) (v : Value) :
    Agree (Renamed x y k) (s.declare name v) (t.declare (rename x y name) v) := by
  have here : t.declaresHere (rename x y name) = s.declaresHere name := by
    rw [declaresHere_eq_isSome, declaresHere_eq_isSome, h.current, h.inner _ h.inside _ ne]
  rcases hs : s.declare name v with e | s'
  · obtain ⟨declared, rfl⟩ := (declare_eq_error_iff s name v e).1 hs
    rw [(declare_eq_error_iff t _ v _).2 ⟨here.trans declared, rfl⟩]
    exact .fault _
  · obtain ⟨new, eq⟩ := declare_eq_ok hs
    have ht : t.declare (rename x y name) v =
        .ok (t.modify t.current fun b => (rename x y name, v) :: b) := by
      rw [ScopeChain.declare, here, new]
      rfl
    rw [ht]
    refine .ok (h.update ne (links_declare hs) (links_declare ht) (binding?_declare hs).2 ?_ ?_)
    · rw [← h.current]
      exact (binding?_declare ht).2
    · -- the innermost frame is not further out
      intro i lt
      have inside := h.inside
      rw [eq, frames_modify_of_ne t (by rw [h.current]; omega),
        frames_modify_of_ne s (by omega), h.outer i lt]

/-- It is assigned on both sides, or refused by both. -/
theorem assign (h : Renamed x y k s t) (ne : name ≠ y) (v : Value) :
    Agree (Renamed x y k) (s.assign name v) (t.assign (rename x y name) v) := by
  obtain ⟨same, sees⟩ := h.resolve ne
  rw [assign_eq, assign_eq, same]
  rcases found : s.resolve name with _ | j
  · exact .fault _
  · have hs : s.assign name v = .ok (s.modify j fun b => b.set name v) := by
      rw [assign_eq, found]
      rfl
    have ht : t.assign (rename x y name) v =
        .ok (t.modify j fun b => b.set (rename x y name) v) := by
      rw [assign_eq, same, found]
      rfl
    obtain ⟨js, founds, -, bs⟩ := binding?_assign hs
    obtain ⟨jt, foundt, -, bt⟩ := binding?_assign ht
    obtain rfl : js = j := Option.some.inj (founds.symm.trans found)
    have index : jt.val = js.val := by
      rw [foundt, founds] at same
      exact Option.some.inj same
    rw [index] at bt
    refine .ok (h.update ne (links_assign hs) (links_assign ht) bs bt fun i lt => ?_)
    by_cases here : js.val = i
    · -- further out the name is not the old one, so the same binding changes
      have other : name ≠ x := (sees js found).resolve_left (by omega)
      unfold modify
      rw [Array.getElem?_modify, Array.getElem?_modify, if_pos here, if_pos here, h.outer i lt,
        rename, if_neg other]
    · rw [frames_modify_of_ne t here, frames_modify_of_ne s here, h.outer i lt]

/-! ## Opening and closing a frame -/

/-- A new frame holds no name yet. -/
theorem push (h : Renamed x y k s t) : Renamed x y k s.push t.push where
  links := by rw [links_push, links_push, h.links, h.current]
  current := h.size
  inside := Nat.le_of_lt (Nat.lt_of_le_of_lt h.inside s.current_lt)
  outer i lt := by
    have inside := h.inside
    have size := h.size
    have := s.current_lt
    unfold ScopeChain.push
    rw [Array.getElem?_push, Array.getElem?_push, if_neg (by omega), if_neg (by omega),
      h.outer i lt]
  inner i le name ne := by
    rw [binding?_push, binding?_push, h.inner i le name ne]
  bound := by
    rw [binding?_push]
    exact h.bound
  nested i lt link eq := by
    rw [links_push, Array.getElem?_push] at eq
    split at eq
    · cases eq
      exact ⟨_, rfl, h.inside⟩
    · exact h.nested i lt link eq

/-- Closing the frame that was opened brings both back, with the frames before it renamed. -/
theorem pop (h : Renamed x y k s t) (h' : Renamed x y k s' t') (links : s'.links = s.push.links)
    (current : s'.current = s.push.current) : Renamed x y k s'.pop t'.pop := by
  have linkst : t'.links = t.push.links := by
    rw [h'.links, links, h.push.links]
  have currentt : t'.current = t.push.current := by
    rw [h'.current, current, h.push.current]
  -- only the frame that was opened is dropped, on both sides
  obtain ⟨links₁, current₁, frames₁⟩ := pop_of_push links current
  obtain ⟨links₂, current₂, frames₂⟩ := pop_of_push linkst currentt
  have lt : k < s.frames.size := Nat.lt_of_le_of_lt h.inside s.current_lt
  constructor
  case links => rw [links₂, links₁, h.links]
  case current => rw [current₂, current₁, h.current]
  case inside =>
    rw [current₁]
    exact h.inside
  case outer =>
    intro i hi
    rw [frames₂, frames₁, h.size, h'.outer i hi]
  case inner =>
    intro i le name ne
    rw [binding?_pop_of_push linkst currentt, binding?_pop_of_push links current, h.size,
      h'.inner i le name ne]
  case bound =>
    rw [binding?_pop_of_push links current, if_pos lt]
    exact h'.bound
  case nested =>
    rw [links₁]
    exact h.nested

/-- Once frame `k` itself is closed, nothing is left of the renaming. -/
theorem pop_eq {u : ScopeChain} (h : Renamed x y u.frames.size s t)
    (links : s.links = u.push.links) (current : s.current = u.push.current) : t.pop = s.pop := by
  have linkst : t.links = u.push.links := h.links.trans links
  have currentt : t.current = u.push.current := h.current.trans current
  obtain ⟨-, current₁, frames₁⟩ := pop_of_push links current
  obtain ⟨-, current₂, frames₂⟩ := pop_of_push linkst currentt
  refine eq_of_frames (Array.ext_getElem? fun i => ?_) (current₂.trans current₁.symm)
  rw [frames₂, frames₁]
  split
  · rename_i lt
    exact h.outer i lt
  · rfl

end Renamed

/-- All names but the new one may be used on both sides. -/
theorem simulation_renamed (x y : String) (k : Nat) :
    Simulation (rename x y) (· ≠ y) (Renamed x y k) where
  get? := Renamed.get?
  declare := Renamed.declare
  assign := Renamed.assign
  push := Renamed.push
  pop := Renamed.pop

/-- The declaration from which on the names differ: it succeeds under both names if the innermost
frame, which is the last one, binds neither. -/
theorem renamed_of_declare {s : ScopeChain} {x y : String} (v : Value)
    (last : s.frames.size = s.current + 1) (hx : s.binding? s.current x = none)
    (hy : s.binding? s.current y = none) :
    ∃ s' t', s.declare x v = .ok s' ∧ s.declare y v = .ok t' ∧ Renamed x y s.current s' t' := by
  -- both names are free in the frame, so both declarations succeed
  have declares : ∀ name, s.binding? s.current name = none →
      s.declare name v = .ok (s.modify s.current fun b => (name, v) :: b) := by
    intro name free
    rw [ScopeChain.declare, declaresHere_eq_isSome, free]
    rfl
  have bs := (binding?_declare (declares x hx)).2
  have bt := (binding?_declare (declares y hy)).2
  refine ⟨_, _, declares x hx, declares y hy, ?_⟩
  constructor
  case links => rw [links_modify, links_modify]
  case current => rfl
  case inside => exact Nat.le_refl _
  case outer =>
    intro i lt
    rw [frames_modify_of_ne s (by omega), frames_modify_of_ne s (by omega)]
  case inner =>
    intro i le name ne
    rw [bs, bt]
    unfold rename
    by_cases old : name = x
    · rw [if_pos old]
      by_cases here : i = s.current
      · rw [if_pos ⟨here, rfl⟩, if_pos ⟨here, old⟩]
      · -- there is no frame behind the last one
        rw [if_neg (fun both => here both.1), if_neg (fun both => here both.1),
          binding?_of_size_le (by omega), binding?_of_size_le (by omega)]
    · rw [if_neg old, if_neg (fun both => ne both.2), if_neg (fun both => old both.2)]
  case bound =>
    rw [bs, if_pos ⟨rfl, rfl⟩]
    rfl
  case nested =>
    intro i lt link eq
    have size : s.links.size = s.current + 1 := s.size_links.trans last
    rw [links_modify, Array.getElem?_eq_none (by omega)] at eq
    cases eq

end ScopeChain

/-! ## Statements around the declaration -/

/-- The name that a statement declares in the frame in which it is run. -/
def Stmt.declares? : Stmt → Option String
  | .declare ident _ _ => some ident.name
  | _ => none

/-- A statement declares in its own frame one name at most. -/
theorem Stmt.declares?_of_mem_declared {s : Stmt} {r : Except RunFault Flow} {name : String}
    (mem : name ∈ s.declared r) : s.declares? = some name := by
  unfold Stmt.declared at mem
  split at mem
  · rw [List.mem_singleton.1 mem]
    rfl
  · cases mem

/-- The name that a statement declares is one of its names. -/
theorem Stmt.mem_names_of_declares? {s : Stmt} {name : String} (h : s.declares? = some name) :
    name ∈ s.names := by
  unfold Stmt.declares? at h
  split at h
  · cases h
    exact List.mem_cons_self
  · cases h

/-- A name of a statement is one of all its sequence has. -/
theorem mem_allNames {s : Stmt} {name : String} (mem : name ∈ s.names) {body : List Stmt}
    (hs : s ∈ body) : name ∈ allNames body := by
  induction hs with
  | head rest => exact List.mem_append_left _ mem
  | tail t _ ih => exact List.mem_append_right _ ih

/-- The names of two sequences one behind the other. -/
theorem allNames_append (xs ys : List Stmt) : allNames (xs ++ ys) = allNames xs ++ allNames ys := by
  induction xs with
  | nil => rfl
  | cons s xs ih => rw [List.cons_append, allNames, allNames, ih, List.append_assoc]

/-- Statements in sequence add only names that one of them declares. -/
theorem declares_all (body : List Stmt) (rounds : Nat) (m : Machine) :
    Ensures m (runAll rounds body) fun _ m' =>
      ∃ added, (∀ name ∈ added, ∃ s ∈ body, s.declares? = some name) ∧
        m.scopes.Evolves m'.scopes added (allAssigned body) := by
  induction body generalizing m with
  | nil => exact ensures_pure ⟨[], List.forall_mem_nil _, .refl _ _⟩
  | cons s rest ih =>
    have left : s.assigned ⊆ allAssigned (s :: rest) := List.subset_append_left _ _
    have first : ∀ r, ∀ name ∈ s.declared r, ∃ t ∈ s :: rest, t.declares? = some name :=
      fun r name mem => ⟨s, List.mem_cons_self, Stmt.declares?_of_mem_declared mem⟩
    refine (s.evolves rounds m).bind (fun e _ h => ⟨_, first (.error e), h.mono left⟩)
      fun flow m' h => ?_
    cases flow with
    | completed =>
      refine (ih m').weaken ?_
      rintro r m'' ⟨added, names, later⟩
      refine ⟨_, List.forall_mem_append.2 ⟨first (.ok .completed), fun name mem => ?_⟩,
        (h.mono left).trans (later.mono (List.subset_append_right _ _))⟩
      obtain ⟨t, ht, declared⟩ := names name mem
      exact ⟨t, List.mem_cons_of_mem _ ht, declared⟩
    | leave span | again span => exact ensures_pure ⟨_, first _, h.mono left⟩

/-- Statements in sequence, cut in two. -/
theorem runAll_append (rounds : Nat) (xs ys : List Stmt) :
    runAll rounds (xs ++ ys) = (do
      let flow ← runAll rounds xs
      match flow with
      | .completed => runAll rounds ys
      | _ => pure flow) := by
  induction xs with
  | nil => rfl
  | cons s xs ih =>
    rw [List.cons_append, runAll, runAll, ih, bind_assoc]
    congr 1
    funext flow
    cases flow with
    | completed => rfl
    | leave span | again span => rfl

/-- A declaration and what follows it. -/
theorem runAll_declare (rounds : Nat) (ident : Ident) (e : Expr) (span : Span) (rest : List Stmt) :
    runAll rounds (.declare ident e span :: rest) = (do
      let v ← Exec.eval e
      Exec.update ident fun s => s.declare ident.name v
      runAll rounds rest) := by
  rw [runAll, Stmt.run]
  simp only [bind_assoc, pure_bind]

/-! ## Blocks -/

/-- Where spans are kept, so is the flow. -/
theorem Flow.relabel_id (flow : Flow) : flow.relabel id = flow := by
  cases flow <;> rfl

section

variable {u : ScopeChain} {x : Ident} {y : String} {post : List Stmt}

/-- Behind the declaration the runs mirror each other until the frame of the block, which was opened
in the scopes `u`, is closed. -/
theorem couples_renamed {s t : ScopeChain} (h : ScopeChain.Renamed x.name y u.frames.size s t)
    (links : s.links = u.push.links) (current : s.current = u.push.current)
    (fresh : y ∉ allNames post) (rounds : Nat) (feed : Feed) (log : Log) :
    Couples ⟨s, feed, log⟩ ⟨t, feed, log⟩ (runAll rounds post)
      (runAll rounds (relabelAll (rename x.name y) id post))
      (fun fault n fault' n' =>
        n'.closed = n.closed ∧ fault' = fault.relabel (rename x.name y) id)
      fun flow n flow' n' => n'.closed = n.closed ∧ flow' = flow := by
  have sim := ScopeChain.simulation_renamed x.name y u.frames.size
  have mirrors := mirrors_all sim id rounds post (fun name mem eq => fresh (eq ▸ mem))
    ⟨s, feed, log⟩ ⟨t, feed, log⟩ ⟨h, rfl, rfl⟩
  have closed : ∀ n n' : Machine, (∃ added, s.Evolves n.scopes added (allAssigned post)) →
      n.Alike (ScopeChain.Renamed x.name y u.frames.size) n' → n'.closed = n.closed := by
    rintro n n' ⟨added, evolved⟩ ⟨scopes, feed, log⟩
    unfold Machine.closed
    rw [feed, log, scopes.pop_eq (evolved.links.trans links) (evolved.current.trans current)]
  refine (mirrors.ensures (evolves_all post rounds _)).weaken ?_ ?_
  · rintro fault n fault' n' ⟨evolved, rfl, alike⟩
    exact ⟨closed n n' evolved alike, rfl⟩
  · rintro flow n flow' n' ⟨evolved, rfl, alike⟩
    exact ⟨closed n n' evolved alike, flow.relabel_id⟩

/-- The value is computed before either name is declared, so it is the same. -/
theorem couples_declaration {m : Machine} (links : m.scopes.links = u.push.links)
    (current : m.scopes.current = u.push.current)
    (hx : m.scopes.binding? u.frames.size x.name = none)
    (hy : m.scopes.binding? u.frames.size y = none) (fresh : y ∉ allNames post) (e : Expr)
    (span : Span) (rounds : Nat) :
    Couples m m (runAll rounds (.declare x e span :: post))
      (runAll rounds (.declare ⟨y, x.span⟩ e span :: relabelAll (rename x.name y) id post))
      (fun fault n fault' n' => n'.closed = n.closed ∧
        (fault' = fault ∨ fault' = fault.relabel (rename x.name y) id))
      fun flow n flow' n' => n'.closed = n.closed ∧ flow' = flow := by
  rw [runAll_declare, runAll_declare]
  have value := (couples_self m (Exec.eval e)).ensures (scopes_eval e)
  refine Couples.bind (value.weaken ?_ fun _ _ _ _ h => h) ?_
  · rintro fault n _ _ ⟨-, rfl, rfl⟩
    exact ⟨rfl, .inl rfl⟩
  rintro _ _ v n ⟨kept, rfl, rfl⟩
  rw [← kept] at links current hx hy
  -- evaluation has changed no frame, so the declaration is made in the last one
  have index : n.scopes.current = u.frames.size := current
  have last : n.scopes.frames.size = n.scopes.current + 1 := by
    rw [← ScopeChain.size_links, links, ScopeChain.size_links, ScopeChain.size_frames_push, index]
  obtain ⟨s, t, hs, ht, renamed⟩ := ScopeChain.renamed_of_declare v last (index ▸ hx) (index ▸ hy)
  have declares : Couples n n (Exec.update x fun s => s.declare x.name v)
      (Exec.update ⟨y, x.span⟩ fun s => s.declare y v) (fun _ _ _ _ => False)
      fun _ k _ k' => k = ⟨s, n.feed, n.log⟩ ∧ k' = ⟨t, n.feed, n.log⟩ := by
    unfold Couples Exec.update
    dsimp only
    rw [hs, ht]
    exact .ok ⟨rfl, rfl⟩
  refine Couples.bind (declares.weaken (fun _ _ _ _ => False.elim) fun _ _ _ _ h => h) ?_
  rintro _ _ _ _ ⟨rfl, rfl⟩
  -- from here on the scopes are renamed, and the statements behind meet `y` nowhere
  obtain ⟨links', current'⟩ := ScopeChain.links_declare hs
  rw [index] at renamed
  have after := couples_renamed renamed (links'.trans links) (current'.trans current) fresh rounds
    n.feed n.log
  exact after.weaken (fun _ _ _ _ h => ⟨h.1, .inr h.2⟩) fun _ _ _ _ h => h

end

/-- From its declaration on, a variable of a block may have any name `y` that does not occur in the
block, if no statement before the declaration declares the variable already. Then the two blocks do
the same from whatever machine they start: both end or neither does, in the same way, by the same
flow, and with the same names, input and output after it. Only a fault may differ, in that it names
`y` where the other names the variable. -/
theorem runs_respect_renaming {pre post : List Stmt} {x : Ident} {e : Expr} {s t : Span} {y : String}
    (new : ∀ p ∈ pre, p.declares? ≠ some x.name)
    (fresh : y ∉ (Block.mk (pre ++ .declare x e s :: post) t).names) (rounds : Nat) (m : Machine) :
    Couples m m ((Block.mk (pre ++ .declare x e s :: post) t).run rounds)
      ((Block.mk (pre ++ .declare ⟨y, x.span⟩ e s ::
        relabelAll (rename x.name y) id post) t).run rounds)
      (fun fault n fault' n' =>
        n' = n ∧ (fault' = fault ∨ fault' = fault.relabel (rename x.name y) id))
      fun flow n flow' n' => n' = n ∧ flow' = flow := by
  obtain ⟨freshPre, freshPost⟩ : y ∉ allNames pre ∧ y ∉ allNames post := by
    have all : y ∉ allNames (pre ++ .declare x e s :: post) := fresh
    rw [allNames_append, List.mem_append, allNames, List.mem_append] at all
    exact ⟨fun mem => all (.inl mem), fun mem => all (.inr (.inr mem))⟩
  refine Couples.inFrame ?_
  rw [runAll_append, runAll_append]
  -- up to the declaration the runs are the same
  have before := (couples_self m.opened (runAll rounds pre)).ensures (declares_all pre rounds _)
  refine Couples.bind (before.weaken ?_ fun _ _ _ _ h => h) ?_
  · rintro fault n _ _ ⟨-, rfl, rfl⟩
    exact ⟨rfl, .inl rfl⟩
  rintro _ _ flow n ⟨⟨added, names, evolved⟩, rfl, rfl⟩
  cases flow with
  | leave span | again span => exact couples_pure ⟨rfl, rfl⟩
  | completed =>
    -- the frame of the block binds only what was declared in it, which is neither name
    have free : ∀ name, (∀ p ∈ pre, p.declares? ≠ some name) →
        n.scopes.binding? m.scopes.frames.size name = none := by
      intro name none
      rw [← Option.not_isSome_iff_eq_none, evolved.bound]
      rintro (old | ⟨-, mem⟩)
      · rw [Machine.opened, ScopeChain.binding?_push,
          ScopeChain.binding?_of_size_le (Nat.le_refl _)] at old
        cases old
      · obtain ⟨p, hp, declared⟩ := names name mem
        exact none p hp declared
    have notY : ∀ p ∈ pre, p.declares? ≠ some y := fun p hp declared =>
      freshPre (mem_allNames (Stmt.mem_names_of_declares? declared) hp)
    exact couples_declaration evolved.links evolved.current (free x.name new) (free y notY) freshPost
      e s rounds

/-- The declaration of a name with the value `n`. -/
def Stmt.binding (name : String) (n : Int64) : Stmt :=
  .declare ⟨name, .nowhere⟩ (.int n .nowhere) .nowhere

/-- A block whose variable is declared once more in a block inside, which is all right, and then in
its own block, which is not. -/
def Block.twice (name : String) : Block :=
  ⟨[.binding "a" 1] ++ .binding name 2 :: [.block ⟨[.binding name 3], .nowhere⟩, .binding name 4],
    .nowhere⟩

/-- Under another name this block leads to the same machine, by a fault that names the other name. -/
theorem runs_respect_renaming_twice :
    ∃ n, (Block.twice "x").run 1 (.start (.ofLines []) .unlimited) =
        some (.error ⟨.alreadyDeclared "x", .nowhere⟩, n) ∧
      (Block.twice "y").run 1 (.start (.ofLines []) .unlimited) =
        some (.error ⟨.alreadyDeclared "y", .nowhere⟩, n) := by
  have new : ∀ p ∈ [Stmt.binding "a" 1], p.declares? ≠ some "x" := by
    rintro p mem
    rw [List.mem_singleton.1 mem]
    decide
  have fresh : "y" ∉ (Block.twice "x").names := by decide
  obtain ⟨n, first⟩ : ∃ n, (Block.twice "x").run 1 (.start (.ofLines []) .unlimited) =
      some (.error ⟨.alreadyDeclared "x", .nowhere⟩, n) := ⟨_, rfl⟩
  obtain ⟨n', second⟩ : ∃ n', (Block.twice "y").run 1 (.start (.ofLines []) .unlimited) =
      some (.error ⟨.alreadyDeclared "y", .nowhere⟩, n') := ⟨_, rfl⟩
  have couples : Couples _ _ ((Block.twice "x").run 1) ((Block.twice "y").run 1) _ _ :=
    runs_respect_renaming new fresh 1 (.start (.ofLines []) .unlimited)
  unfold Couples at couples
  rw [first, second] at couples
  cases couples with
  | fault h => exact ⟨n, first, h.1 ▸ second⟩

end GujaratiScript
