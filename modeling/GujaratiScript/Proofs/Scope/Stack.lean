import Mathlib.Data.Finmap
import GujaratiScript.Proofs.Scope.Bindings

/-!
# Scopes as a stack of maps

From outside, a chain of scopes cannot be told from a plain stack of finite maps, in which no frame
is numbered and none is linked.

* `ScopeStack` : the stack, never empty, with the same operations;
* `ScopeChain.Linear` : the frames of a chain are linked one after another, the last innermost;
* `ScopeChain.stack` : the stack that a chain stands for;
* `stack_perform`, `stack_performAll` : every operation on a linear chain is that on its stack;
* `chain_refines_stack` : what holds after any operations.
-/

namespace GujaratiScript

/-! ## Operations -/

/-- What can be asked of scopes. -/
inductive ScopeOp where
  | push
  | pop
  | declare (name : String) (v : Value)
  | assign (name : String) (v : Value)
  | get (name : String)
  | declaresHere (name : String)

/-- What scopes answer. -/
inductive ScopeAnswer where
  | frame (id : Nat)
  | done
  | refused (fault : ScopeFault)
  | value (v : Option Value)
  | holds (b : Bool)

/-- Scopes with one that is innermost, in any representation. -/
class Scopes (σ : Type) where
  /-- The global scope alone, without names. -/
  empty : σ
  /-- The number of the innermost scope, from 0 for the global one. -/
  innermost : σ → Nat
  push : σ → σ
  pop : σ → σ
  declare : σ → String → Value → Except ScopeFault σ
  assign : σ → String → Value → Except ScopeFault σ
  get? : σ → String → Option Value
  declaresHere : σ → String → Bool

namespace Scopes

variable {σ : Type}

/-- A change that may be refused, which then leaves everything as it was. -/
def settle (s : σ) : Except ScopeFault σ → ScopeAnswer × σ
  | .ok t => (.done, t)
  | .error fault => (.refused fault, s)

/-- The answer to one operation, and the scopes after it. -/
def perform [Scopes σ] (s : σ) : ScopeOp → ScopeAnswer × σ
  | .push => (.frame (innermost (push s)), push s)
  | .pop => (.done, pop s)
  | .declare name v => settle s (declare s name v)
  | .assign name v => settle s (assign s name v)
  | .get name => (.value (get? s name), s)
  | .declaresHere name => (.holds (declaresHere s name), s)

/-- The answers to operations in sequence, and the scopes after them. -/
def performAll [Scopes σ] (s : σ) : List ScopeOp → List ScopeAnswer × σ
  | [] => ([], s)
  | op :: ops =>
    let (answer, t) := perform s op
    let (answers, u) := performAll t ops
    (answer :: answers, u)

/-- What holds before a change, and after it if it is not refused, holds once it is settled. -/
theorem settle_snd {P : σ → Prop} {s : σ} {r : Except ScopeFault σ} (before : P s)
    (after : ∀ t, r = .ok t → P t) : P (settle s r).2 := by
  cases r with
  | ok t => exact after t rfl
  | error fault => exact before

/-- What is refused changes nothing. -/
theorem perform_of_refused [Scopes σ] {s : σ} {op : ScopeOp} {fault : ScopeFault}
    (h : (perform s op).1 = .refused fault) : (perform s op).2 = s := by
  have settled : ∀ r : Except ScopeFault σ, (settle s r).1 = .refused fault → (settle s r).2 = s := by
    intro r refused
    cases r with
    | ok t => cases refused
    | error _ => rfl
  cases op with
  | push | pop => cases h
  | declare name v | assign name v => exact settled _ h
  | get name | declaresHere name => rfl

end Scopes

instance : Scopes ScopeChain where
  empty := .empty
  innermost := ScopeChain.current
  push := ScopeChain.push
  pop := ScopeChain.pop
  declare := ScopeChain.declare
  assign := ScopeChain.assign
  get? := ScopeChain.get?
  declaresHere := ScopeChain.declaresHere

/-! ## Stacks of maps -/

/-- Finitely many names with their values. -/
abbrev NameMap := Finmap fun _ : String => Value

/-- A list of maps that is not empty, the innermost first. -/
inductive ScopeStack where
  | global (names : NameMap)
  | inside (names : NameMap) (outer : ScopeStack)

namespace ScopeStack

/-- The innermost map. -/
def names : ScopeStack → NameMap
  | global names => names
  | inside names _ => names

/-- The stack with another innermost map. -/
def withNames (t : ScopeStack) (names : NameMap) : ScopeStack :=
  match t with
  | global _ => global names
  | inside _ outer => inside names outer

/-- How many maps are around the innermost one. -/
def height : ScopeStack → Nat
  | global _ => 0
  | inside _ outer => outer.height + 1

/-- Drops the innermost map, unless it is the only one. -/
def pop : ScopeStack → ScopeStack
  | global names => global names
  | inside _ outer => outer

/-- Binds a name in the innermost map, which must not hold it yet. -/
def declare (t : ScopeStack) (name : String) (v : Value) : Except ScopeFault ScopeStack :=
  if name ∈ t.names then .error .alreadyDeclared
  else .ok (t.withNames (t.names.insert name v))

/-- Gives a name another value in the innermost map that holds it. -/
def assign : ScopeStack → String → Value → Except ScopeFault ScopeStack
  | global names, name, v =>
    if name ∈ names then .ok (global (names.insert name v)) else .error .undefined
  | inside names outer, name, v =>
    if name ∈ names then .ok (inside (names.insert name v) outer)
    else (outer.assign name v).map (inside names)

/-- The value of a name in the innermost map that holds it. -/
def get? : ScopeStack → String → Option Value
  | global names, name => names.lookup name
  | inside names outer, name => if name ∈ names then names.lookup name else outer.get? name

end ScopeStack

instance : Scopes ScopeStack where
  empty := .global ∅
  innermost := ScopeStack.height
  push := .inside ∅
  pop := ScopeStack.pop
  declare := ScopeStack.declare
  assign := ScopeStack.assign
  get? := ScopeStack.get?
  declaresHere t name := decide (name ∈ t.names)

/-! ## The map of a frame -/

namespace Bindings

/-- The names of a frame as a map. -/
def toMap (b : Bindings) : NameMap :=
  b.foldr (fun entry names => names.insert entry.1 entry.2) ∅

/-- The map of a frame has the values of the frame. -/
@[simp] theorem lookup_toMap (b : Bindings) (name : String) :
    b.toMap.lookup name = b.get? name := by
  induction b with
  | nil => rfl
  | cons entry b ih =>
    show (Finmap.insert entry.1 entry.2 (toMap b)).lookup name = _
    rw [get?_cons]
    by_cases eq : name = entry.1
    · rw [if_pos eq, eq, Finmap.lookup_insert]
    · rw [if_neg eq, Finmap.lookup_insert_of_ne _ eq, ih]

/-- The map of a frame holds the names of the frame. -/
@[simp] theorem mem_toMap (b : Bindings) (name : String) : name ∈ b.toMap ↔ b.has name = true := by
  rw [← Finmap.lookup_isSome, lookup_toMap, has_eq_isSome]

/-- Another value for a bound name is that name inserted. -/
theorem toMap_set {b : Bindings} {name : String} (bound : b.has name = true) (v : Value) :
    toMap (b.set name v) = b.toMap.insert name v := by
  refine Finmap.ext_lookup fun x => ?_
  rw [lookup_toMap, get?_set]
  by_cases eq : x = name
  · rw [has_eq_isSome] at bound
    obtain ⟨w, found⟩ := Option.isSome_iff_exists.1 bound
    rw [if_pos eq, eq, Finmap.lookup_insert, found]
    rfl
  · rw [if_neg eq, Finmap.lookup_insert_of_ne _ eq, lookup_toMap]

end Bindings

/-! ## Linear chains -/

namespace ScopeChain

variable {s t : ScopeChain}

/-- Each frame is opened in the one before it, and the last is innermost. -/
structure Linear (s : ScopeChain) : Prop where
  last : s.current + 1 = s.frames.size
  global : s.links[0]? = some none
  inside : ∀ i, i + 1 < s.frames.size → s.links[i + 1]? = some (some i)

/-- The chain of the global frame alone is linear. -/
theorem linear_empty : empty.Linear where
  last := rfl
  global := by simp [links, empty]
  inside i lt := by
    have size : empty.frames.size = 1 := rfl
    omega

/-- Where only names change, the links stay in line. -/
theorem Linear.of_links (h : s.Linear) (links : t.links = s.links) (current : t.current = s.current) :
    t.Linear := by
  have size : t.frames.size = s.frames.size := by rw [← size_links, links, size_links]
  refine ⟨?_, ?_, fun i lt => ?_⟩
  · rw [current, size, h.last]
  · rw [links, h.global]
  · rw [links, h.inside i (size ▸ lt)]

/-- A new frame is opened in the last one. -/
theorem Linear.push (h : s.Linear) : s.push.Linear := by
  have last := h.last
  refine ⟨?_, ?_, fun i lt => ?_⟩
  · rw [size_frames_push]
    rfl
  · rw [links_push, Array.getElem?_push, size_links, if_neg (by omega), h.global]
  · rw [size_frames_push] at lt
    rw [links_push, Array.getElem?_push, size_links]
    split
    · have : s.current = i := by omega
      rw [this]
    · exact h.inside i (by omega)

/-- After a frame is closed, the one before it is innermost. -/
theorem Linear.current_pop (h : s.Linear) {i : Nat} (eq : s.current = i + 1) :
    s.pop.current = i := by
  have last := h.last
  rw [(pop_of_ne_zero (by omega)).2, show s.frames.size - 1 = i + 1 by omega,
    h.inside i (by omega)]
  rfl

/-- Without its last frame the chain is linear still. -/
theorem Linear.pop (h : s.Linear) : s.pop.Linear := by
  match eq : s.current with
  | 0 =>
    rw [show s.pop = s from dif_pos eq]
    exact h
  | i + 1 =>
    have last := h.last
    have ne : s.current ≠ 0 := by omega
    have size : s.pop.frames.size = i + 1 := by
      rw [(pop_of_ne_zero ne).1, Array.size_pop]
      omega
    refine ⟨?_, ?_, fun j lt => ?_⟩
    · rw [h.current_pop eq, size]
    · rw [links_pop ne, Array.getElem?_pop, size_links, if_pos (by omega), h.global]
    · rw [links_pop ne, Array.getElem?_pop, size_links, if_pos (by omega), h.inside j (by omega)]

/-- No operation takes a chain out of its linear form. -/
theorem Linear.perform (h : s.Linear) (op : ScopeOp) : (Scopes.perform s op).2.Linear := by
  cases op with
  | push => exact h.push
  | pop => exact h.pop
  | declare name v =>
    exact Scopes.settle_snd (P := Linear) h fun t eq =>
      h.of_links (links_declare eq).1 (links_declare eq).2
  | assign name v =>
    exact Scopes.settle_snd (P := Linear) h fun t eq =>
      h.of_links (links_assign eq).1 (links_assign eq).2
  | get name | declaresHere name => exact h

/-! ## Looking names up in a linear chain -/

/-- From the global frame there is nowhere else to look. -/
theorem resolveFrom_zero (name : String) (lt : 0 < s.frames.size) :
    s.resolveFrom name 0 lt = if s.frames[0].bindings.has name then some ⟨0, lt⟩ else none := by
  rw [resolveFrom]
  split
  · rfl
  · split
    · rfl
    · rename_i j outer
      exact absurd (s.outward 0 lt j outer) (Nat.not_lt_zero j)

/-- From any other frame, the search goes on in the frame before it. -/
theorem resolveFrom_succ (h : s.Linear) (name : String) (i : Nat) (lt : i + 1 < s.frames.size) :
    s.resolveFrom name (i + 1) lt =
      if s.frames[i + 1].bindings.has name then some ⟨i + 1, lt⟩
      else s.resolveFrom name i (Nat.lt_of_succ_lt lt) := by
  have link : s.frames[i + 1].outer = some i := by
    have := h.inside i lt
    rw [links, Array.getElem?_map, Array.getElem?_eq_getElem lt] at this
    exact Option.some.inj this
  rw [resolveFrom]
  split
  · rfl
  · split
    · rename_i none
      rw [link] at none
      cases none
    · rename_i j outer
      rw [link] at outer
      cases outer
      rfl

/-! ## The stack of a chain -/

/-- The names of a frame as a map, which is empty if there is no such frame. -/
def namesAt (s : ScopeChain) (i : Nat) : NameMap :=
  match s.frames[i]? with
  | some frame => frame.bindings.toMap
  | none => ∅

/-- The stack of the frames up to one. -/
def stackTo (s : ScopeChain) : Nat → ScopeStack
  | 0 => .global (s.namesAt 0)
  | i + 1 => .inside (s.namesAt (i + 1)) (s.stackTo i)

/-- The stack that a linear chain stands for. -/
def stack (s : ScopeChain) : ScopeStack := s.stackTo s.current

/-- The map of a frame that is there. -/
theorem namesAt_eq_getElem {i : Nat} (lt : i < s.frames.size) :
    s.namesAt i = s.frames[i].bindings.toMap := by
  rw [namesAt, Array.getElem?_eq_getElem lt]

/-- The value of a name in the map of a frame. -/
theorem lookup_namesAt {i : Nat} (lt : i < s.frames.size) (name : String) :
    (s.namesAt i).lookup name = s.frames[i].bindings.get? name := by
  rw [namesAt_eq_getElem lt, Bindings.lookup_toMap]

/-- Whether a name is in the map of a frame. -/
theorem mem_namesAt {i : Nat} (lt : i < s.frames.size) (name : String) :
    name ∈ s.namesAt i ↔ s.frames[i].bindings.has name = true := by
  rw [namesAt_eq_getElem lt, Bindings.mem_toMap]

/-- The innermost map of the stack up to a frame is that of the frame. -/
@[simp] theorem names_stackTo (s : ScopeChain) (i : Nat) : (s.stackTo i).names = s.namesAt i := by
  cases i <;> rfl

/-- The stack up to frame `i` has `i` maps around the innermost one. -/
@[simp] theorem height_stackTo (s : ScopeChain) (i : Nat) : (s.stackTo i).height = i := by
  induction i with
  | zero => rfl
  | succ i ih => exact congrArg (· + 1) ih

/-- The stack up to a frame depends on no frame behind it. -/
theorem stackTo_congr {i : Nat} (same : ∀ j ≤ i, t.frames[j]? = s.frames[j]?) :
    t.stackTo i = s.stackTo i := by
  induction i with
  | zero => rw [stackTo, stackTo, namesAt, namesAt, same 0 (Nat.le_refl 0)]
  | succ i ih =>
    rw [stackTo, stackTo, namesAt, namesAt, same (i + 1) (Nat.le_refl _),
      ih fun j le => same j (Nat.le_succ_of_le le)]

/-- Changing the names of a frame changes the innermost map of the stack up to it. -/
theorem stackTo_modify {i : Nat} (lt : i < s.frames.size) (f : Bindings → Bindings) :
    (s.modify i f).stackTo i = (s.stackTo i).withNames (f s.frames[i].bindings).toMap := by
  have here : (s.modify i f).namesAt i = (f s.frames[i].bindings).toMap := by
    rw [namesAt, modify, Array.getElem?_modify, if_pos rfl, Array.getElem?_eq_getElem lt]
    rfl
  cases i with
  | zero => rw [stackTo, here]; rfl
  | succ i =>
    rw [stackTo, here, stackTo_congr fun j le => s.frames_modify_of_ne (by omega) f]
    rfl

/-! ## The operations on the stack -/

/-- A name has the value in the stack that it has in the frame where it is found. -/
theorem get?_stackTo (h : s.Linear) (name : String) {i : Nat} (lt : i < s.frames.size) :
    (s.stackTo i).get? name =
      (s.resolveFrom name i lt).bind fun j => s.frames[j].bindings.get? name := by
  -- the search goes outwards by one frame whenever the stack is left with one map less
  induction i with
  | zero =>
    rw [resolveFrom_zero, stackTo, ScopeStack.get?, lookup_namesAt lt]
    by_cases here : s.frames[0].bindings.has name = true
    · rw [if_pos here]
      rfl
    · rw [if_neg here]
      rw [Bindings.has_eq_isSome, Option.not_isSome_iff_eq_none] at here
      exact here
  | succ i ih =>
    rw [resolveFrom_succ h, stackTo, ScopeStack.get?, lookup_namesAt lt]
    by_cases here : s.frames[i + 1].bindings.has name = true
    · rw [if_pos ((mem_namesAt lt name).2 here), if_pos here]
      rfl
    · rw [if_neg (mt (mem_namesAt lt name).1 here), if_neg here, ih]

/-- A name is found at or outside the frame where the search starts. -/
theorem resolveFrom_le {name : String} {i : Nat} {lt : i < s.frames.size} {j : Fin s.frames.size}
    (found : s.resolveFrom name i lt = some j) : j ≤ i := by
  induction i using Nat.strongRecOn with
  | ind i ih =>
    rw [resolveFrom] at found
    split at found
    · cases found
      exact Nat.le_refl _
    · split at found
      · cases found
      · rename_i k outer
        have outward := s.outward i lt k outer
        exact Nat.le_trans (ih k outward found) (Nat.le_of_lt outward)

/-- Another value for a name that the innermost frame binds. -/
theorem stackTo_set {name : String} {i : Nat} (lt : i < s.frames.size)
    (here : s.frames[i].bindings.has name = true) (v : Value) :
    (s.modify i fun b => b.set name v).stackTo i =
      (s.stackTo i).withNames ((s.namesAt i).insert name v) := by
  rw [stackTo_modify lt, Bindings.toMap_set here, namesAt_eq_getElem lt]

/-- An assignment to the stack is one to the frame where the name is found. -/
theorem assign_stackTo (h : s.Linear) (name : String) (v : Value) {i : Nat}
    (lt : i < s.frames.size) :
    (s.stackTo i).assign name v =
      match s.resolveFrom name i lt with
      | some j => .ok ((s.modify j fun b => b.set name v).stackTo i)
      | none => .error .undefined := by
  -- the search goes from the frame outward, as the assignment to the stack does
  induction i with
  | zero =>
    rw [resolveFrom_zero, stackTo, ScopeStack.assign]
    by_cases here : s.frames[0].bindings.has name = true
    · rw [if_pos ((mem_namesAt lt name).2 here), if_pos here]
      dsimp only
      rw [stackTo_set lt here]
      rfl
    · rw [if_neg (mt (mem_namesAt lt name).1 here), if_neg here]
  | succ i ih =>
    rw [resolveFrom_succ h, stackTo, ScopeStack.assign]
    by_cases here : s.frames[i + 1].bindings.has name = true
    · rw [if_pos ((mem_namesAt lt name).2 here), if_pos here]
      dsimp only
      rw [stackTo_set lt here]
      rfl
    · rw [if_neg (mt (mem_namesAt lt name).1 here), if_neg here, ih (Nat.lt_of_succ_lt lt)]
      rcases found : s.resolveFrom name i (Nat.lt_of_succ_lt lt) with _ | j
      · rfl
      · -- the frame in which the name is found is further out, so this one stays
        have outside : j.val ≠ i + 1 := Nat.ne_of_lt (Nat.lt_succ_of_le (resolveFrom_le found))
        dsimp only
        rw [stackTo, namesAt, namesAt, frames_modify_of_ne s outside]
        rfl

/-- A new frame is an empty map inside the stack. -/
theorem stack_push (h : s.Linear) : s.push.stack = .inside ∅ s.stack := by
  have last := h.last
  have new : s.push.namesAt (s.current + 1) = ∅ := by
    rw [namesAt, push, Array.getElem?_push, if_pos last]
    rfl
  have old : s.push.stackTo s.current = s.stackTo s.current := by
    refine stackTo_congr fun j le => ?_
    rw [push, Array.getElem?_push, if_neg (by omega)]
  rw [stack, show s.push.current = s.current + 1 from last.symm, stackTo, new, old]
  rfl

/-- Closing a frame drops the innermost map. -/
theorem stack_pop (h : s.Linear) : s.pop.stack = s.stack.pop := by
  match eq : s.current with
  | 0 =>
    rw [show s.pop = s from dif_pos eq, stack, eq]
    rfl
  | i + 1 =>
    have last := h.last
    rw [stack, stack, h.current_pop eq, eq]
    refine stackTo_congr fun j le => ?_
    rw [(pop_of_ne_zero (by omega)).1, Array.getElem?_pop, if_pos (by omega)]

/-- The innermost map holds the names of the current frame. -/
theorem mem_names_stack (s : ScopeChain) (name : String) :
    name ∈ s.stack.names ↔ s.declaresHere name = true := by
  rw [stack, names_stackTo, mem_namesAt s.current_lt]
  rfl

/-- A name is asked for in the innermost map alone. -/
theorem declaresHere_stack (s : ScopeChain) (name : String) :
    Scopes.declaresHere s.stack name = s.declaresHere name :=
  Bool.eq_iff_iff.2 (decide_eq_true_iff.trans (s.mem_names_stack name))

/-- A declaration succeeds or is refused as it is on the stack. -/
theorem declare_stack (s : ScopeChain) (name : String) (v : Value) :
    s.stack.declare name v = (s.declare name v).map stack := by
  rw [ScopeStack.declare, declare]
  by_cases here : s.declaresHere name = true
  · rw [if_pos ((s.mem_names_stack name).2 here), if_pos here]
    rfl
  · rw [if_neg (mt (s.mem_names_stack name).1 here), if_neg here, Except.map]
    show Except.ok _ = Except.ok (stackTo _ s.current)
    rw [stackTo_modify s.current_lt, stack, names_stackTo, namesAt_eq_getElem s.current_lt]
    rfl

/-- An assignment succeeds or is refused as it is on the stack. -/
theorem assign_stack (h : s.Linear) (name : String) (v : Value) :
    s.stack.assign name v = (s.assign name v).map stack := by
  rw [stack, assign_stackTo h name v s.current_lt, assign, resolve]
  rcases s.resolveFrom name s.current s.current_lt with _ | j <;> rfl

/-- Names have the values that they have on the stack. -/
theorem get?_stack (h : s.Linear) (name : String) : s.stack.get? name = s.get? name := by
  rw [stack, get?_stackTo h name s.current_lt, get?, resolve]
  rcases s.resolveFrom name s.current s.current_lt with _ | j <;> rfl

/-- Changes that are mapped are settled as they are, and mapped then. -/
theorem settle_map {σ τ : Type} (f : σ → τ) (s : σ) (r : Except ScopeFault σ) :
    Scopes.settle (f s) (r.map f) = (Scopes.settle s r).map id f := by
  cases r <;> rfl

/-- Every operation on a linear chain is that on its stack, with the same answer. -/
theorem stack_perform (h : s.Linear) (op : ScopeOp) :
    Scopes.perform s.stack op = ((Scopes.perform s op).1, (Scopes.perform s op).2.stack) := by
  cases op with
  | push =>
    have height : s.push.stack.height = s.push.current := height_stackTo _ _
    rw [stack_push h] at height
    show (ScopeAnswer.frame (ScopeStack.inside ∅ s.stack).height, ScopeStack.inside ∅ s.stack) = _
    rw [height, ← stack_push h]
    rfl
  | pop => exact congrArg (ScopeAnswer.done, ·) (stack_pop h).symm
  | declare name v =>
    show Scopes.settle s.stack (s.stack.declare name v) = _
    rw [declare_stack, settle_map]
    rfl
  | assign name v =>
    show Scopes.settle s.stack (s.stack.assign name v) = _
    rw [assign_stack h, settle_map]
    rfl
  | get name => exact congrArg (ScopeAnswer.value · , s.stack) (get?_stack h name)
  | declaresHere name => exact congrArg (ScopeAnswer.holds ·, s.stack) (declaresHere_stack s name)

/-- So is any sequence of operations, and it leaves a linear chain. -/
theorem stack_performAll (h : s.Linear) (ops : List ScopeOp) :
    (Scopes.performAll s ops).2.Linear ∧
      Scopes.performAll s.stack ops =
        ((Scopes.performAll s ops).1, (Scopes.performAll s ops).2.stack) := by
  induction ops generalizing s with
  | nil => exact ⟨h, rfl⟩
  | cons op ops ih =>
    obtain ⟨linear, eq⟩ := ih (h.perform op)
    refine ⟨linear, ?_⟩
    rw [Scopes.performAll, stack_perform h op]
    dsimp only
    rw [eq]
    rfl

end ScopeChain

/-! ## Operations inside one frame -/

/-- An operation that leaves the frames before frame `n` as they are: it does not close frame `n`,
and it assigns to no name that is found before it. -/
def ScopeOp.Inside (n : Nat) (s : ScopeChain) : ScopeOp → Prop
  | .pop => n < s.current
  | .assign name _ => ∀ j, s.resolve name = some j → n ≤ j
  | _ => True

namespace ScopeChain

variable {s : ScopeChain} {n : Nat}

/-- Operations that are all inside frame `n`, each when its turn comes, and after which this frame
is innermost. -/
def StaysInside (n : Nat) : ScopeChain → List ScopeOp → Prop
  | s, [] => s.current = n
  | s, op :: ops => op.Inside n s ∧ StaysInside n (Scopes.perform s op).2 ops

/-- Frame `n` is open in `t`, and the frames before it are as in `s`. -/
def AgreesBefore (n : Nat) (s t : ScopeChain) : Prop :=
  n ≤ t.current ∧ ∀ i < n, t.frames[i]? = s.frames[i]?

/-- An operation inside a frame leaves the frames before it as they are, and this one open. -/
theorem agreesBefore_perform (h : s.Linear) (le : n ≤ s.current) {op : ScopeOp}
    (inside : op.Inside n s) : AgreesBefore n s (Scopes.perform s op).2 := by
  have last := h.last
  cases op with
  | push =>
    refine ⟨Nat.le_of_lt (Nat.lt_of_le_of_lt le s.current_lt), fun i lt => ?_⟩
    show s.push.frames[i]? = _
    rw [push, Array.getElem?_push, if_neg (by omega)]
  | pop =>
    have stillOpen : n < s.current := inside
    obtain ⟨k, eq⟩ := Nat.exists_eq_add_one_of_ne_zero (Nat.ne_zero_of_lt stillOpen)
    refine ⟨?_, fun i lt => ?_⟩
    · show n ≤ s.pop.current
      rw [h.current_pop eq]
      omega
    · show s.pop.frames[i]? = _
      rw [(pop_of_ne_zero (by omega)).1, Array.getElem?_pop, if_pos (by omega)]
  | declare name v =>
    refine Scopes.settle_snd (P := AgreesBefore n s) ⟨le, fun _ _ => rfl⟩ fun t eq => ?_
    obtain ⟨-, rfl⟩ := declare_eq_ok eq
    exact ⟨le, fun i lt => s.frames_modify_of_ne (by omega) _⟩
  | assign name v =>
    refine Scopes.settle_snd (P := AgreesBefore n s) ⟨le, fun _ _ => rfl⟩ fun t eq => ?_
    obtain ⟨j, found, rfl⟩ := assign_eq_ok eq
    have behind : n ≤ j := inside j found
    exact ⟨le, fun i lt => s.frames_modify_of_ne (by omega) _⟩
  | get name | declaresHere name => exact ⟨le, fun _ _ => rfl⟩

/-- The frames before one that the operations stay inside of are left alone. -/
theorem frames_performAll (h : s.Linear) (le : n ≤ s.current) {ops : List ScopeOp}
    (inside : s.StaysInside n ops) :
    (Scopes.performAll s ops).2.current = n ∧
      ∀ i < n, (Scopes.performAll s ops).2.frames[i]? = s.frames[i]? := by
  induction ops generalizing s with
  | nil => exact ⟨inside, fun _ _ => rfl⟩
  | cons op ops ih =>
    obtain ⟨first, later⟩ := inside
    obtain ⟨stays, same⟩ := agreesBefore_perform h le first
    obtain ⟨ends, rest⟩ := ih (h.perform op) stays later
    exact ⟨ends, fun i lt => (rest i lt).trans (same i lt)⟩

/-- What happens inside a frame of its own is undone when that frame is closed. -/
theorem pop_performAll_push (h : s.Linear) {ops : List ScopeOp}
    (inside : s.push.StaysInside s.frames.size ops) :
    (Scopes.performAll s.push ops).2.pop = s := by
  have last := h.last
  have linear := (stack_performAll h.push ops).1
  obtain ⟨ends, same⟩ := frames_performAll (n := s.frames.size) h.push (Nat.le_refl _) inside
  have size := linear.last
  -- the frame that is closed is the one that was opened, so those before it are all of them
  refine eq_of_frames ?_ (linear.current_pop (ends.trans last.symm))
  rw [(pop_of_ne_zero (by omega)).1]
  refine Array.ext_getElem? fun i => ?_
  rw [Array.getElem?_pop]
  by_cases lt : i < s.frames.size
  · rw [if_pos (by omega), same i lt, push, Array.getElem?_push, if_neg (by omega)]
  · rw [if_neg (by omega), Array.getElem?_eq_none (Nat.not_lt.1 lt)]

end ScopeChain

/-! ## Any operations -/

/-- From the global scope on, a chain answers as a stack of maps does, whatever it is asked. Its
frames are always linked one after another. An operation that is refused changes nothing, an
assignment that is not changes one binding, and what happens inside a frame that is opened and
closed again is undone. -/
theorem chain_refines_stack (ops : List ScopeOp) (answers : List ScopeAnswer) (s : ScopeChain)
    (run : Scopes.performAll Scopes.empty ops = (answers, s)) :
    Scopes.performAll Scopes.empty ops = (answers, s.stack) ∧
    s.Linear ∧
    (∀ op fault, (Scopes.perform s op).1 = .refused fault → (Scopes.perform s op).2 = s) ∧
    (∀ name v t, s.assign name v = .ok t → t.links = s.links ∧ t.current = s.current ∧
      ∃ i, (s.binding? i name).isSome = true ∧ ∀ j x,
        t.binding? j x = if j = i ∧ x = name then some v else s.binding? j x) ∧
    ∀ inner, s.push.StaysInside s.frames.size inner →
      (Scopes.performAll s.push inner).2.pop = s := by
  obtain ⟨linear, same⟩ := ScopeChain.stack_performAll ScopeChain.linear_empty ops
  have run' : Scopes.performAll ScopeChain.empty ops = (answers, s) := run
  rw [run'] at linear same
  refine ⟨?_, linear, fun op fault refused => ?_, fun name v t eq => ?_, fun inner stays => ?_⟩
  · rw [← same]
    rfl
  · exact Scopes.perform_of_refused refused
  · obtain ⟨links, current⟩ := ScopeChain.links_assign eq
    obtain ⟨j, -, bound, changed⟩ := ScopeChain.binding?_assign eq
    exact ⟨links, current, j, bound, changed⟩
  · exact ScopeChain.pop_performAll_push linear stays

/-- A name is declared globally; then it cannot be declared once more, is given another value, and
is declared and assigned again inside a frame of its own. -/
theorem chain_refines_stack_shadow :
    ∃ answers, ∃ s : ScopeChain,
      Scopes.performAll Scopes.empty [.declare "x" (.int 1)] = (answers, s) ∧
      Scopes.performAll Scopes.empty [.declare "x" (.int 1)] = (answers, s.stack) ∧
      (Scopes.perform s (.declare "x" (.int 2))).2 = s ∧
      (∃ t i, s.assign "x" (.int 3) = .ok t ∧ t.binding? i "x" = some (.int 3)) ∧
      (Scopes.performAll s.push [.declare "x" (.int 4), .assign "x" (.int 5)]).2.pop = s := by
  obtain ⟨answers, s, run⟩ : ∃ answers, ∃ s : ScopeChain,
      Scopes.performAll Scopes.empty [.declare "x" (.int 1)] = (answers, s) := ⟨_, _, rfl⟩
  obtain ⟨same, -, refused, assigned, undone⟩ := chain_refines_stack _ answers s run
  refine ⟨answers, s, run, same, ?_, ?_, undone _ ?_⟩
  · cases run
    exact refused _ .alreadyDeclared rfl
  · obtain ⟨t, eq⟩ : ∃ t, s.assign "x" (.int 3) = .ok t := by
      cases run
      exact ⟨_, by rw [ScopeChain.assign, ScopeChain.resolve_of_declaresHere rfl]⟩
    obtain ⟨-, -, i, -, changed⟩ := assigned "x" (.int 3) t eq
    exact ⟨t, i, eq, (changed i "x").trans (if_pos ⟨rfl, rfl⟩)⟩
  · cases run
    refine ⟨trivial, fun j found => ?_, ?_⟩
    · rw [ScopeChain.resolve_of_declaresHere rfl] at found
      cases found
      exact Nat.le_refl 1
    · show ScopeChain.current (Scopes.settle _ (ScopeChain.assign _ "x" (.int 5))).2 = 1
      rw [ScopeChain.assign, ScopeChain.resolve_of_declaresHere rfl]
      rfl

end GujaratiScript
