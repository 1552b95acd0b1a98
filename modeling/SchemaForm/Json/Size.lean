import SchemaForm.Json.Basic

/-!
# Sizes of JSON values

How the size of an object changes with its entries. `weight p` counts only the entries whose key
satisfies `p`; with it the effect of an insertion or a removal is one equation.
-/

namespace SchemaForm.Json

theorem size_pos (v : Json) : 0 < v.size := by
  cases v <;> unfold size <;> omega

/-- The size of an absent value is zero. -/
def sizeOpt (data : Option Json) : Nat := data.elim 0 size

@[simp] theorem sizeOpt_none : sizeOpt none = 0 := rfl

@[simp] theorem sizeOpt_some (v : Json) : sizeOpt (some v) = v.size := rfl

theorem size_le_sizeItems {v : Json} {items : List Json} (h : v ∈ items) :
    v.size ≤ sizeItems items := by
  induction items with
  | nil => simp at h
  | cons head rest ih =>
    simp only [sizeItems]
    rcases List.mem_cons.1 h with rfl | h
    · omega
    · have := ih h; omega

theorem length_le_sizeItems (items : List Json) : items.length ≤ sizeItems items := by
  induction items with
  | nil => exact Nat.le_refl 0
  | cons v rest ih =>
    have := size_pos v
    rw [List.length_cons, sizeItems]
    omega

theorem size_le_sizeEntries {entry : String × Json} {entries : Fields} (h : entry ∈ entries) :
    entry.2.size ≤ sizeEntries entries := by
  induction entries with
  | nil => simp at h
  | cons head rest ih =>
    simp only [sizeEntries]
    rcases List.mem_cons.1 h with rfl | h
    · omega
    · have := ih h; omega

/-- Induction on a value: an array by way of its elements, an object by way of its values. -/
@[elab_as_elim]
theorem induct {motive : Json → Prop}
    (scalar : ∀ v : Json, v.isObj = false → v.isArr = false → motive v)
    (arr : ∀ items : List Json, (∀ v ∈ items, motive v) → motive (.arr items))
    (obj : ∀ entries : List (String × Json), (∀ e ∈ entries, motive e.2) → motive (.obj entries))
    (v : Json) : motive v := by
  cases v with
  | arr items =>
    refine arr items fun v hv => ?_
    have := size_le_sizeItems hv
    exact induct scalar arr obj v
  | obj entries =>
    refine obj entries fun e he => ?_
    have := size_le_sizeEntries he
    exact induct scalar arr obj e.2
  | _ => exact scalar _ rfl rfl
termination_by v.size
decreasing_by all_goals simp only [size]; omega

theorem sizeItems_append (xs ys : List Json) :
    sizeItems (xs ++ ys) = sizeItems xs + sizeItems ys := by
  induction xs with
  | nil => simp [sizeItems]
  | cons x xs ih => simp only [List.cons_append, sizeItems, ih]; omega

theorem sizeItems_filter_le (p : Json → Bool) (items : List Json) :
    sizeItems (items.filter p) ≤ sizeItems items := by
  induction items with
  | nil => simp
  | cons head rest ih =>
    simp only [List.filter_cons]
    split <;> simp only [sizeItems] <;> omega

/-- The total size of the members whose key satisfies a condition. -/
def weight (p : String → Bool) : Fields → Nat
  | [] => 0
  | (key, v) :: rest => (if p key then v.size else 0) + weight p rest

theorem weight_true (entries : Fields) : weight (fun _ => true) entries = sizeEntries entries := by
  induction entries with
  | nil => rfl
  | cons head rest ih => simp [weight, sizeEntries, ih]

theorem weight_le (p : String → Bool) (entries : Fields) :
    weight p entries ≤ sizeEntries entries := by
  induction entries with
  | nil => simp [weight]
  | cons head rest ih =>
    simp only [weight, sizeEntries]
    split <;> omega

theorem weight_filter (p q : String → Bool) (entries : Fields) :
    weight p (entries.filter fun entry => q entry.1) =
      weight (fun key => p key && q key) entries := by
  induction entries with
  | nil => rfl
  | cons head rest ih =>
    simp only [List.filter_cons]
    cases hq : q head.1 <;> cases hp : p head.1 <;> simp [weight, ih, hq, hp]

/-- The members split into those that satisfy a condition and those that do not. -/
theorem weight_add_weight_not (p : String → Bool) (entries : Fields) :
    weight p entries + weight (fun key => !p key) entries = sizeEntries entries := by
  induction entries with
  | nil => rfl
  | cons head rest ih =>
    simp only [weight, sizeEntries]
    by_cases h : p head.1 = true <;> simp [h] <;> omega

/-- The value of a key is among the members that satisfy a condition of the key. -/
theorem sizeOpt_get?_le_weight {p : String → Bool} {key : String} (h : p key = true)
    (entries : Fields) : sizeOpt (Entries.get? key entries) ≤ weight p entries := by
  induction entries with
  | nil => simp [Entries.get?]
  | cons head rest ih =>
    simp only [Entries.get?, weight]
    split
    · next heq => simp [heq, h]
    · omega

theorem sizeOpt_get?_le (key : String) (entries : Fields) :
    sizeOpt (Entries.get? key entries) ≤ sizeEntries entries :=
  Nat.le_trans (sizeOpt_get?_le_weight (p := fun _ => true) rfl entries) (weight_le _ _)

/-- The values of two different keys stand side by side. -/
theorem sizeOpt_get?_add_le_weight {p : String → Bool} {k l : String} (hne : k ≠ l)
    (hk : p k = true) (hl : p l = true) (entries : Fields) :
    sizeOpt (Entries.get? k entries) + sizeOpt (Entries.get? l entries) ≤ weight p entries := by
  induction entries with
  | nil => simp [Entries.get?]
  | cons head rest ih =>
    simp only [Entries.get?, weight]
    split
    · next heq =>
      have := sizeOpt_get?_le_weight hl rest
      rw [if_neg (heq ▸ hne)]
      simp only [heq, hk, if_true, sizeOpt_some]
      omega
    · split
      · next heq =>
        have := sizeOpt_get?_le_weight hk rest
        simp only [heq, hl, if_true, sizeOpt_some]
        omega
      · omega

/-- An insertion takes the place of the old value. -/
theorem weight_insert (p : String → Bool) (key : String) (v : Json) (entries : Fields) :
    weight p (Entries.insert key v entries) +
        (if p key then sizeOpt (Entries.get? key entries) else 0) =
      weight p entries + (if p key then v.size else 0) := by
  induction entries with
  | nil => simp [Entries.insert, Entries.get?, weight]
  | cons head rest ih =>
    simp only [Entries.insert, Entries.get?]
    split
    · next heq => subst heq; simp only [weight, sizeOpt_some]; omega
    · simp only [weight]; omega

theorem weight_split (p q : String → Bool) (entries : Fields) :
    weight (fun key => p key && q key) entries + weight (fun key => p key && !q key) entries =
      weight p entries := by
  induction entries with
  | nil => rfl
  | cons head rest ih =>
    simp only [weight]
    by_cases hp : p head.1 = true <;> by_cases hq : q head.1 = true <;> simp [hp, hq] <;> omega

/-- Counted by any condition of the keys, removing a key takes its value away. -/
theorem weight_eraseAll_add_le {p : String → Bool} {keys : List String} {k : String}
    (hp : p k = true) (hk : k ∈ keys) (entries : Fields) :
    weight p (Entries.eraseAll keys entries) + sizeOpt (Entries.get? k entries) ≤
      weight p entries := by
  have hw := weight_filter p (fun key => !keys.contains key) entries
  have hs := weight_split p (fun key => !keys.contains key) entries
  have hg := sizeOpt_get?_le_weight (p := fun key => p key && !(!keys.contains key))
    (show (p k && !(!keys.contains k)) = true by simpa [hp] using hk) entries
  unfold Entries.eraseAll
  omega

/-- Removing a key takes its value away. -/
theorem sizeEntries_eraseAll_add_le {keys : List String} {k : String} (hk : k ∈ keys)
    (entries : Fields) :
    sizeEntries (Entries.eraseAll keys entries) + sizeOpt (Entries.get? k entries) ≤
      sizeEntries entries := by
  simpa only [weight_true] using weight_eraseAll_add_le (p := fun _ => true) rfl hk entries

/-- Removing two keys takes both values away. -/
theorem sizeEntries_eraseAll_add_add_le {keys : List String} {k l : String} (hne : k ≠ l)
    (hk : k ∈ keys) (hl : l ∈ keys) (entries : Fields) :
    sizeEntries (Entries.eraseAll keys entries) + sizeOpt (Entries.get? k entries) +
      sizeOpt (Entries.get? l entries) ≤ sizeEntries entries := by
  have hw := weight_filter (fun _ => true) (fun key => !keys.contains key) entries
  have hs := weight_add_weight_not (fun key => !keys.contains key) entries
  have hg := sizeOpt_get?_add_le_weight (p := fun key => !(!keys.contains key)) hne
    (by simpa using hk) (by simpa using hl) entries
  simp only [weight_true, Bool.true_and] at hw
  unfold Entries.eraseAll
  omega

end SchemaForm.Json
