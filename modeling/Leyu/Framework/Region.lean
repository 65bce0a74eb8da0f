import Mathlib.Data.List.OfFn

/-!
# Loops that fill a region of an array

An array is a list. `Overwrites body base old new` says that `body` replaces the region `old` at
the index `base` by `new` and leaves everything around it. The rules compose such bodies and lift
them through a counting loop, so that nested loops with computed indices are read off as one
region each.
-/

namespace Leyu.Framework

variable {β : Type*}

theorem length_flatten_ofFn {n width : Nat} {f : Fin n → List β} (h : ∀ i, (f i).length = width) :
    (List.ofFn f).flatten.length = n * width := by
  have hlengths : (List.ofFn f).map List.length = List.replicate n width := by
    rw [List.map_ofFn, ← List.ofFn_const]
    exact congrArg List.ofFn (funext h)
  rw [List.length_flatten, hlengths, List.sum_replicate_nat]

theorem flatten_ofFn_succ {n : Nat} (f : Fin (n + 1) → List β) :
    (List.ofFn f).flatten =
      (List.ofFn fun i : Fin n => f i.castSucc).flatten ++ f (Fin.last n) := by
  rw [List.ofFn_succ_last, List.flatten_append, List.flatten_singleton]

theorem take_drop_flatten {width : Nat} {blocks : List (List β)}
    (h : ∀ block ∈ blocks, block.length = width) (back : List β) {i : Nat}
    (hi : i < blocks.length) :
    ((blocks.flatten ++ back).drop (i * width)).take width = blocks[i] := by
  induction blocks generalizing i with
  | nil => simp at hi
  | cons block blocks ih =>
    have hblock := h block List.mem_cons_self
    cases i with
    | zero => simp [← hblock]
    | succ i =>
      have hrest := ih (fun b hb => h b (List.mem_cons_of_mem block hb)) (Nat.lt_of_succ_lt_succ hi)
      rw [List.getElem_cons_succ, ← hrest, List.flatten_cons, List.append_assoc, Nat.succ_mul,
        Nat.add_comm, ← hblock, ← List.drop_drop, List.drop_left]

/-- The body replaces the region at the base and nothing else. -/
def Overwrites (body : List β → List β) (base : Nat) (old new : List β) : Prop :=
  ∀ front back : List β, front.length = base → body (front ++ old ++ back) = front ++ new ++ back

namespace Overwrites

variable {body body' : List β → List β} {base : Nat} {old new old' new' : List β}

theorem set (base : Nat) (x y : β) : Overwrites (fun xs => xs.set base y) base [x] [y] := by
  rintro front back rfl
  simp [List.set_append_right]

theorem skip (base : Nat) (old : List β) : Overwrites (fun xs => xs) base old old :=
  fun _ _ _ => rfl

theorem seq (h : Overwrites body base old new) (hlen : new.length = old.length)
    (h' : Overwrites body' (base + old.length) old' new') :
    Overwrites (fun xs => body' (body xs)) base (old ++ old') (new ++ new') := by
  intro front back hfront
  have hfirst := h front (old' ++ back) hfront
  have hsecond := h' (front ++ new) back (by simp [hfront, hlen])
  simp only [List.append_assoc] at hfirst hsecond ⊢
  rw [hfirst, hsecond]

theorem apply_append (h : Overwrites body 0 old new) (back : List β) :
    body (old ++ back) = new ++ back := h [] back rfl

/-- The loop rule: the passes overwrite neighbouring regions of one width. -/
theorem loop {n : Nat} (body : (i : Nat) → i < n → List β → List β) (base width : Nat)
    (old new : Fin n → List β) (hold : ∀ i, (old i).length = width)
    (hnew : ∀ i, (new i).length = width)
    (hbody : ∀ i : Fin n, Overwrites (body i i.isLt) (base + i * width) (old i) (new i)) :
    Overwrites (fun xs => n.fold body xs) base (List.ofFn old).flatten (List.ofFn new).flatten := by
  induction n with
  | zero => exact fun _ _ _ => by simp
  | succ n ih =>
    have hinit := ih (fun i h => body i (Nat.lt_succ_of_lt h)) (fun i => old i.castSucc)
      (fun i => new i.castSucc) (fun i => hold i.castSucc) (fun i => hnew i.castSucc)
      fun i => hbody i.castSucc
    have hlast := hbody (Fin.last n)
    rw [flatten_ofFn_succ, flatten_ofFn_succ]
    refine hinit.seq ?_ ?_
    · rw [length_flatten_ofFn fun i => hnew i.castSucc,
        length_flatten_ofFn fun i => hold i.castSucc]
    · rw [length_flatten_ofFn fun i => hold i.castSucc]
      exact hlast

theorem fill {n : Nat} (base : Nat) (old new : Fin n → β) :
    Overwrites (fun xs => n.fold (fun i h xs => xs.set (base + i) (new ⟨i, h⟩)) xs) base
      (List.ofFn old) (List.ofFn new) := by
  have hsingles (f : Fin n → β) : (List.ofFn fun i => [f i]).flatten = List.ofFn f := by
    have hmap : (List.ofFn fun i => [f i]) = (List.ofFn f).map fun x => [x] := by
      rw [List.map_ofFn]
      rfl
    rw [hmap, ← List.flatMap_def, List.flatMap_singleton']
  have hloop := loop (fun i h xs => xs.set (base + i) (new ⟨i, h⟩)) base 1 (fun i => [old i])
    (fun i => [new i]) (fun _ => rfl) (fun _ => rfl) fun i => by
      rw [Nat.mul_one]
      exact set (base + i) (old i) (new i)
  rwa [hsingles, hsingles] at hloop

end Overwrites

end Leyu.Framework
