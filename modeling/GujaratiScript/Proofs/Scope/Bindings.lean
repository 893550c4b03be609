import GujaratiScript.Run.Scope

/-!
# What a chain of scopes binds

A chain is seen as the values of the names of each frame (`ScopeChain.binding?`) and the links
between the frames (`ScopeChain.links`). The effect of every operation is given on these two and on
the frame that is innermost.

* `declare_eq_ok`, `assign_eq_ok` : what these do if they are not refused;
* `binding?_declare`, `binding?_assign` : a declaration and an assignment change one binding;
* `binding?_push`, `binding?_pop_of_push` : opening a frame changes none, closing one forgets its own;
* `eq_of_frames` : chains with the same frames and the same innermost one are the same.
-/

namespace GujaratiScript

/-! ## Bindings -/

namespace Bindings

/-- A binding in front hides those of its name behind it. -/
theorem get?_cons (name : String) (v : Value) (b : Bindings) (x : String) :
    get? ((name, v) :: b) x = if x = name then some v else b.get? x := by
  unfold get?
  rw [List.lookup_cons]
  by_cases eq : x = name
  · rw [if_pos eq, beq_iff_eq.2 eq]
  · rw [if_neg eq, beq_eq_false_iff_ne.2 eq]

/-- The names that are bound are those with a value. -/
theorem has_eq_isSome (b : Bindings) (name : String) : b.has name = (b.get? name).isSome := by
  induction b with
  | nil => rfl
  | cons entry b ih =>
    rw [get?_cons]
    unfold has at ih ⊢
    rw [List.any_cons, ih]
    by_cases eq : name = entry.1
    · rw [if_pos eq, beq_iff_eq.2 eq.symm]
      rfl
    · rw [if_neg eq, beq_eq_false_iff_ne.2 (Ne.symm eq)]
      rfl

/-- Another value for a bound name is one for no other name, and binds none. -/
theorem get?_set (b : Bindings) (name : String) (v : Value) (x : String) :
    (b.set name v).get? x = if x = name then (b.get? name).map fun _ => v else b.get? x := by
  induction b with
  | nil =>
    show none = _
    split <;> rfl
  | cons entry b ih =>
    obtain ⟨y, w⟩ := entry
    show get? ((if y == name then (name, v) else (y, w)) :: set b name v) x = _
    by_cases eq : y = name
    · subst eq
      rw [if_pos (beq_self_eq_true y), get?_cons, get?_cons, get?_cons, ih]
      by_cases hx : x = y
      · simp [hx]
      · simp [hx]
    · rw [if_neg (by simpa using eq), get?_cons, get?_cons, get?_cons, ih]
      by_cases hx : x = name
      · simp [hx, Ne.symm eq]
      · simp [hx]

end Bindings

/-! ## Chains -/

namespace ScopeChain

variable {s t : ScopeChain}

/-- The value of a name in one frame. -/
def binding? (s : ScopeChain) (i : Nat) (name : String) : Option Value :=
  s.frames[i]?.bind fun frame => frame.bindings.get? name

/-- The index of the frame around each frame. -/
def links (s : ScopeChain) : Array (Option Nat) := s.frames.map Frame.outer

/-- A chain is its frames and its innermost one. -/
theorem eq_of_frames (frames : s.frames = t.frames) (current : s.current = t.current) : s = t := by
  cases s
  cases t
  cases frames
  cases current
  rfl

/-- What a name is bound to in a frame that is there. -/
theorem binding?_eq_getElem {i : Nat} (h : i < s.frames.size) (name : String) :
    s.binding? i name = s.frames[i].bindings.get? name := by
  rw [binding?, Array.getElem?_eq_getElem h]
  rfl

/-- Where there is no frame, no name is bound. -/
theorem binding?_of_size_le {i : Nat} (h : s.frames.size ≤ i) (name : String) :
    s.binding? i name = none := by
  rw [binding?, Array.getElem?_eq_none h]
  rfl

/-- There is one link for each frame. -/
theorem size_links (s : ScopeChain) : s.links.size = s.frames.size := Array.size_map

/-- A frame declares the names that it binds. -/
theorem declaresHere_eq_isSome (s : ScopeChain) (name : String) :
    s.declaresHere name = (s.binding? s.current name).isSome := by
  rw [binding?_eq_getElem s.current_lt]
  exact Bindings.has_eq_isSome _ _

/-! ## Changing names -/

/-- A change of one frame is seen in that frame alone. -/
theorem binding?_modify (s : ScopeChain) (i : Nat) (f : Bindings → Bindings) (j : Nat)
    (name : String) :
    (s.modify i f).binding? j name =
      if i = j then s.frames[j]?.bind fun frame => (f frame.bindings).get? name
      else s.binding? j name := by
  unfold binding? modify
  rw [Array.getElem?_modify]
  split
  · rw [Option.bind_map]
    rfl
  · rfl

/-- The other frames are the same. -/
theorem frames_modify_of_ne (s : ScopeChain) {i j : Nat} (ne : i ≠ j) (f : Bindings → Bindings) :
    (s.modify i f).frames[j]? = s.frames[j]? := by
  rw [modify, Array.getElem?_modify, if_neg ne]

/-- Changing names changes no link. -/
theorem links_modify (s : ScopeChain) (i : Nat) (f : Bindings → Bindings) :
    (s.modify i f).links = s.links := by
  -- the frame that is changed keeps its link, the others stay
  refine Array.ext_getElem? fun j => ?_
  unfold links modify
  rw [Array.getElem?_map, Array.getElem?_map, Array.getElem?_modify]
  split
  · rw [Option.map_map]
    rfl
  · rfl

/-- What a declaration does. -/
theorem declare_eq_ok {name : String} {v : Value} (h : s.declare name v = .ok t) :
    s.declaresHere name = false ∧ t = s.modify s.current fun b => (name, v) :: b := by
  unfold declare at h
  split at h
  · cases h
  · rename_i new
    cases h
    exact ⟨Bool.not_eq_true _ ▸ new, rfl⟩

/-- What an assignment does. -/
theorem assign_eq_ok {name : String} {v : Value} (h : s.assign name v = .ok t) :
    ∃ j, s.resolve name = some j ∧ t = s.modify j fun b => b.set name v := by
  unfold assign at h
  split at h
  · rename_i j found
    cases h
    exact ⟨j, found, rfl⟩
  · cases h

/-- A declaration binds one name more, in the innermost frame, which did not bind it. -/
theorem binding?_declare {name : String} {v : Value} (h : s.declare name v = .ok t) :
    s.binding? s.current name = none ∧ ∀ i x,
      t.binding? i x = if i = s.current ∧ x = name then some v else s.binding? i x := by
  obtain ⟨new, rfl⟩ := declare_eq_ok h
  rw [declaresHere_eq_isSome, Option.isSome_eq_false_iff, Option.isNone_iff_eq_none] at new
  refine ⟨new, fun i x => ?_⟩
  rw [binding?_modify]
  by_cases here : s.current = i
  · subst here
    rw [if_pos rfl, Array.getElem?_eq_getElem s.current_lt, Option.bind_some, Bindings.get?_cons,
      binding?_eq_getElem s.current_lt]
    simp
  · rw [if_neg here, if_neg (fun eq => here eq.1.symm)]

/-- A name is found in a frame that binds it. -/
theorem isSome_binding?_of_resolveFrom {name : String} {id : Nat} {h : id < s.frames.size}
    {j : Fin s.frames.size} (found : s.resolveFrom name id h = some j) :
    (s.binding? j name).isSome = true := by
  induction id using Nat.strongRecOn with
  | ind id ih =>
    rw [resolveFrom] at found
    split at found
    · rename_i here
      cases found
      rw [binding?_eq_getElem h, ← Bindings.has_eq_isSome]
      exact here
    · split at found
      · cases found
      · rename_i k outer
        exact ih k (s.outward id h k outer) found

/-- A name that the innermost frame declares is found there. -/
theorem resolve_of_declaresHere {name : String} (here : s.declaresHere name = true) :
    s.resolve name = some ⟨s.current, s.current_lt⟩ := by
  rw [resolve, resolveFrom]
  exact if_pos here

/-- An assignment gives one bound name another value, in the frame where the name is found. -/
theorem binding?_assign {name : String} {v : Value} (h : s.assign name v = .ok t) :
    ∃ j, s.resolve name = some j ∧ (s.binding? j name).isSome = true ∧ ∀ i x,
      t.binding? i x = if i = j ∧ x = name then some v else s.binding? i x := by
  obtain ⟨j, found, rfl⟩ := assign_eq_ok h
  have bound := isSome_binding?_of_resolveFrom found
  refine ⟨j, found, bound, fun i x => ?_⟩
  rw [binding?_modify]
  by_cases here : j.val = i
  · subst here
    obtain ⟨w, eq⟩ := Option.isSome_iff_exists.1 bound
    rw [binding?_eq_getElem j.isLt] at eq
    rw [if_pos rfl, Array.getElem?_eq_getElem j.isLt, Option.bind_some, Bindings.get?_set,
      binding?_eq_getElem j.isLt, eq]
    simp
  · rw [if_neg here, if_neg (fun eq => here eq.1.symm)]

/-- Declaring and assigning change no link and leave the same frame innermost. -/
theorem links_declare {name : String} {v : Value} (h : s.declare name v = .ok t) :
    t.links = s.links ∧ t.current = s.current := by
  obtain ⟨-, rfl⟩ := declare_eq_ok h
  exact ⟨links_modify _ _ _, rfl⟩

/-- An assignment leaves the frames linked as they are. -/
theorem links_assign {name : String} {v : Value} (h : s.assign name v = .ok t) :
    t.links = s.links ∧ t.current = s.current := by
  obtain ⟨j, -, rfl⟩ := assign_eq_ok h
  exact ⟨links_modify _ _ _, rfl⟩

/-! ## Opening and closing frames -/

/-- A new frame is linked to the current one. -/
theorem links_push (s : ScopeChain) : s.push.links = s.links.push (some s.current) :=
  Array.map_push

/-- A frame that was just opened binds nothing. -/
theorem binding?_push (s : ScopeChain) (i : Nat) (name : String) :
    s.push.binding? i name = s.binding? i name := by
  unfold binding? push
  rw [Array.getElem?_push]
  split
  · rename_i last
    rw [last, Array.getElem?_eq_none (Nat.le_refl _)]
    rfl
  · rfl

/-- Unless the global frame is innermost, the last frame is closed, and the frame around it is
innermost then. -/
theorem pop_of_ne_zero (h : s.current ≠ 0) :
    s.pop.frames = s.frames.pop ∧
      s.pop.current = ((s.links[s.frames.size - 1]?).getD none).getD 0 := by
  have last : s.frames.size - 1 < s.frames.size := by
    have := s.current_lt
    omega
  unfold pop links
  rw [dif_neg h, Array.getElem?_map, Array.getElem?_eq_getElem last]
  exact ⟨rfl, rfl⟩

/-- The link of a frame goes with it. -/
theorem links_pop (h : s.current ≠ 0) : s.pop.links = s.links.pop := by
  unfold links
  rw [(pop_of_ne_zero h).1, Array.map_pop]

/-- Once a frame is closed that was opened in `s`, the links are those of `s` again, the same frame is
innermost, and the frames of `s` are left. -/
theorem pop_of_push (links : t.links = s.push.links) (current : t.current = s.push.current) :
    t.pop.links = s.links ∧ t.pop.current = s.current ∧
      ∀ i, t.pop.frames[i]? = if i < s.frames.size then t.frames[i]? else none := by
  have last : t.current = s.frames.size := current
  have pos : t.current ≠ 0 := by
    have := s.current_lt
    omega
  rw [links_push] at links
  have size : t.frames.size = s.frames.size + 1 := by
    rw [← size_links, links, Array.size_push, size_links]
  refine ⟨?_, ?_, fun i => ?_⟩
  · rw [links_pop pos, links, Array.pop_push]
  · rw [(pop_of_ne_zero pos).2, links, size, Nat.add_sub_cancel, Array.getElem?_push,
      if_pos s.size_links.symm]
    rfl
  · rw [(pop_of_ne_zero pos).1, Array.getElem?_pop, size, Nat.add_sub_cancel]

/-- The frames of `s` bind what they have bound before the frame was closed. -/
theorem binding?_pop_of_push (links : t.links = s.push.links) (current : t.current = s.push.current)
    (i : Nat) (name : String) :
    t.pop.binding? i name = if i < s.frames.size then t.binding? i name else none := by
  unfold binding?
  rw [(pop_of_push links current).2.2]
  split <;> rfl

end ScopeChain

end GujaratiScript
