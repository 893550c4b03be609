import GujaratiScript.Value.Basic

/-!
# Scopes

A `ScopeChain` is a stack of frames. Each frame holds the names declared in it and the index of the
frame it was opened in; a name is looked up along these links. The first frame holds the global
names and is never closed.

* `resolve` : the frame in which a visible name is declared;
* `push`, `pop` : opening and closing a frame;
* `declare`, `assign`, `get?` : the names.

Every link leads to a frame further out, so a look-up ends.
-/

namespace GujaratiScript

/-! ## Bindings -/

/-- The names of one frame with their values, the last declared first. -/
abbrev Bindings := List (String × Value)

namespace Bindings

/-- The value of a name. -/
def get? (b : Bindings) (name : String) : Option Value :=
  List.lookup name b

/-- Whether a name is bound. -/
def has (b : Bindings) (name : String) : Bool :=
  b.any fun entry => entry.1 == name

/-- Gives a bound name another value. -/
def set (b : Bindings) (name : String) (v : Value) : Bindings :=
  b.map fun entry => if entry.1 == name then (name, v) else entry

/-- Whether two frames bind the same names to equal values. -/
def eq (b c : Bindings) : Bool :=
  b.length == c.length && b.all fun entry =>
    match c.get? entry.1 with
    | some v => entry.2 == v
    | none => false

end Bindings

/-- The names declared in one scope, and the index of the scope around it. -/
structure Frame where
  bindings : Bindings
  outer : Option Nat
  deriving Repr, Inhabited

/-- Why a name cannot be declared or assigned. -/
inductive ScopeFault where
  | alreadyDeclared
  | undefined
  deriving DecidableEq, Repr, Inhabited

/-! ## Chains -/

/-- Frames with links outwards, and the innermost frame that is open. -/
structure ScopeChain where
  frames : Array Frame
  current : Nat
  current_lt : current < frames.size
  outward : ∀ (i : Nat) (h : i < frames.size) (j : Nat), frames[i].outer = some j → j < i

namespace ScopeChain

/-- The global frame alone, without names. -/
def empty : ScopeChain where
  frames := #[⟨[], none⟩]
  current := 0
  current_lt := by decide
  outward := by
    intro i h j e
    have : i = 0 := by simpa using h
    subst this
    simp at e

instance : Inhabited ScopeChain := ⟨empty⟩

/-- The frame at or outside frame `id` in which `name` is declared, if there is one. -/
def resolveFrom (s : ScopeChain) (name : String) (id : Nat) (h : id < s.frames.size) :
    Option (Fin s.frames.size) :=
  if s.frames[id].bindings.has name then some ⟨id, h⟩
  else
    match _e : s.frames[id].outer with
    | none => none
    | some j => s.resolveFrom name j (Nat.lt_trans (s.outward id h j _e) h)
termination_by id
decreasing_by exact s.outward id h j _e

/-- The frame in which the visible `name` is declared. -/
def resolve (s : ScopeChain) (name : String) : Option (Fin s.frames.size) :=
  s.resolveFrom name s.current s.current_lt

/-- The value of a visible name. -/
def get? (s : ScopeChain) (name : String) : Option Value :=
  match s.resolve name with
  | some i => s.frames[i].bindings.get? name
  | none => none

/-- Whether the innermost frame declares `name`. -/
def declaresHere (s : ScopeChain) (name : String) : Bool :=
  have := s.current_lt
  s.frames[s.current].bindings.has name

/-- Changes the names of one frame. -/
def modify (s : ScopeChain) (i : Nat) (f : Bindings → Bindings) : ScopeChain where
  frames := s.frames.modify i fun frame => ⟨f frame.bindings, frame.outer⟩
  current := s.current
  current_lt := by simpa using s.current_lt
  outward := by
    intro k h j e
    have hk : k < s.frames.size := by simpa using h
    refine s.outward k hk j ?_
    rw [Array.getElem_modify] at e
    split at e <;> simpa using e

/-- Opens a frame inside the innermost one. -/
def push (s : ScopeChain) : ScopeChain where
  frames := s.frames.push ⟨[], some s.current⟩
  current := s.frames.size
  current_lt := by simp
  outward := by
    intro k h j e
    rw [Array.getElem_push] at e
    split at e
    · exact s.outward k _ j e
    · rename_i hk
      have hs : k = s.frames.size := by
        have := h
        rw [Array.size_push] at this
        omega
      simp only [Option.some.injEq] at e
      rw [hs, ← e]
      exact s.current_lt

/-- Closes the innermost frame; the global frame stays open. -/
def pop (s : ScopeChain) : ScopeChain :=
  if h : s.current = 0 then s
  else
    have last : s.frames.size - 1 < s.frames.size := by
      have := s.current_lt
      omega
    { frames := s.frames.pop
      current := (s.frames[s.frames.size - 1].outer).getD 0
      current_lt := by
        have lt := s.current_lt
        rw [Array.size_pop]
        match e : s.frames[s.frames.size - 1].outer with
        | none =>
          simp only [Option.getD_none]
          omega
        | some j =>
          simp only [Option.getD_some]
          exact s.outward _ last j e
      outward := by
        intro k hk j e
        rw [Array.getElem_pop] at e
        exact s.outward k _ j e }

/-- Opening a frame adds one. -/
@[simp] theorem size_frames_push (s : ScopeChain) : s.push.frames.size = s.frames.size + 1 := by
  simp [push]

/-- A frame that was just opened declares nothing. -/
@[simp] theorem declaresHere_push (s : ScopeChain) (name : String) :
    s.push.declaresHere name = false := by
  simp [declaresHere, push, Bindings.has]

/-- Closing a frame that was just opened gives the chain as it was. -/
@[simp] theorem pop_push (s : ScopeChain) : s.push.pop = s := by
  have := s.current_lt
  have h : ¬ s.push.current = 0 := by
    simp only [push]
    omega
  simp only [pop, h, dite_false]
  simp [push]

/-- Binds `name` in the innermost frame, which must not declare it yet. -/
def declare (s : ScopeChain) (name : String) (v : Value) : Except ScopeFault ScopeChain :=
  if s.declaresHere name then .error .alreadyDeclared
  else .ok (s.modify s.current fun b => (name, v) :: b)

/-- Gives the visible `name` another value. -/
def assign (s : ScopeChain) (name : String) (v : Value) : Except ScopeFault ScopeChain :=
  match s.resolve name with
  | some i => .ok (s.modify i fun b => b.set name v)
  | none => .error .undefined

/-- Declaring fails exactly if the innermost frame declares the name already. -/
theorem declare_eq_error_iff (s : ScopeChain) (name : String) (v : Value) (f : ScopeFault) :
    s.declare name v = .error f ↔ s.declaresHere name = true ∧ f = .alreadyDeclared := by
  unfold declare
  split <;> simp_all [@eq_comm _ f]

/-- Assigning fails exactly if no frame in sight declares the name. -/
theorem assign_eq_error_iff (s : ScopeChain) (name : String) (v : Value) (f : ScopeFault) :
    s.assign name v = .error f ↔ s.resolve name = none ∧ f = .undefined := by
  unfold assign
  cases s.resolve name <;> simp [@eq_comm _ f]

/-- Whether two chains have the same frames, by equality of values, and the same innermost one. -/
def eq (s t : ScopeChain) : Bool :=
  s.current == t.current && s.frames.size == t.frames.size &&
    (s.frames.zip t.frames).all fun (f, g) => f.bindings.eq g.bindings && f.outer == g.outer

end ScopeChain

end GujaratiScript
