import Mathlib.Data.List.Basic

/-!
# The latest entry

A log whose readers want the latest entry that concerns them: a registry in which later entries shadow
earlier ones, a file of settings in which the last line that names a field wins.

`latest? f log` is what the latest entry on which `f` is defined says, and `IsLatest log P a` is the
relation behind it. `get_foldl` is the rule for a record whose fields are written one at a time: after
any number of writes, a field holds what the latest write to it has left.
-/

namespace Latest

variable {α β γ : Type}

/-- What the latest entry on which `f` is defined says. -/
def latest? (f : α → Option β) : List α → Option β
  | [] => none
  | a :: log => (latest? f log).or (f a)

/-- `a` is the latest entry with the property. -/
def IsLatest (log : List α) (P : α → Prop) (a : α) : Prop :=
  ∃ before after, log = before ++ a :: after ∧ P a ∧ ∀ x ∈ after, ¬ P x

variable {f : α → Option β} {log : List α}

@[simp] theorem latest?_nil : latest? f [] = none := rfl

theorem latest?_cons (a : α) : latest? f (a :: log) = (latest? f log).or (f a) := rfl

theorem latest?_append (front back : List α) :
    latest? f (front ++ back) = (latest? f back).or (latest? f front) := by
  induction front with
  | nil => simp
  | cons a front ih => rw [List.cons_append, latest?_cons, latest?_cons, ih, Option.or_assoc]

@[simp] theorem latest?_eq_none_iff : latest? f log = none ↔ ∀ a ∈ log, f a = none := by
  induction log with
  | nil => simp
  | cons a log ih => rw [latest?_cons, Option.or_eq_none_iff, ih, List.forall_mem_cons, and_comm]

theorem latest?_isSome_iff : (latest? f log).isSome ↔ ∃ a ∈ log, (f a).isSome := by
  rw [Option.isSome_iff_ne_none, Ne, latest?_eq_none_iff]
  simp [Option.isSome_iff_ne_none]

/-- **The latest entry has nothing behind it.** -/
theorem latest?_eq_some_iff {b : β} :
    latest? f log = some b ↔
      ∃ before a after, log = before ++ a :: after ∧ f a = some b ∧ ∀ x ∈ after, f x = none := by
  constructor
  · intro h
    induction log with
    | nil => cases h
    | cons a log ih =>
        rw [latest?_cons] at h
        cases hlog : latest? f log with
        | none =>
            rw [hlog, Option.none_or] at h
            exact ⟨[], a, log, rfl, h, latest?_eq_none_iff.mp hlog⟩
        | some b' =>
            rw [hlog, Option.some_or] at h
            obtain ⟨before, a', after, rfl, ha, hafter⟩ := ih (hlog.trans h)
            exact ⟨a :: before, a', after, rfl, ha, hafter⟩
  · intro hex
    obtain ⟨before, a, after, rfl, ha, hafter⟩ := hex
    rw [latest?_append, latest?_cons, latest?_eq_none_iff.mpr hafter, Option.none_or, ha,
      Option.some_or]

/-- Where the entries agree, the order does not matter. -/
theorem latest?_eq_some_of_unique {b : β} (hall : ∀ a ∈ log, ∀ b', f a = some b' → b' = b)
    (hsome : ∃ a ∈ log, (f a).isSome) : latest? f log = some b := by
  obtain ⟨b', hb'⟩ := Option.isSome_iff_exists.mp (latest?_isSome_iff.mpr hsome)
  obtain ⟨before, a, after, hlog, ha, -⟩ := latest?_eq_some_iff.mp hb'
  have hmem : a ∈ log := by rw [hlog]; simp
  rw [hb', hall a hmem b' ha]

theorem latest?_congr {f g : α → Option β} (h : ∀ a ∈ log, f a = g a) :
    latest? f log = latest? g log := by
  induction log with
  | nil => rfl
  | cons a log ih =>
      rw [latest?_cons, latest?_cons, h a List.mem_cons_self,
        ih fun x hx => h x (List.mem_cons_of_mem a hx)]

theorem latest?_map (g : γ → α) (log : List γ) :
    latest? f (log.map g) = latest? (fun c => f (g c)) log := by
  induction log with
  | nil => rfl
  | cons c log ih => rw [List.map_cons, latest?_cons, latest?_cons, ih]

theorem map_latest? (g : β → γ) : (latest? f log).map g = latest? (fun a => (f a).map g) log := by
  induction log with
  | nil => rfl
  | cons a log ih => rw [latest?_cons, latest?_cons, Option.map_or, ih]

theorem latest?_filterMap (g : γ → Option α) (log : List γ) :
    latest? f (log.filterMap g) = latest? (fun c => (g c).bind f) log := by
  induction log with
  | nil => rfl
  | cons c log ih =>
      rw [List.filterMap_cons, latest?_cons, ← ih]
      cases g c with
      | none => rw [Option.bind_none, Option.or_none]
      | some a => rfl

/-- Read backwards, the latest entry comes first. -/
theorem latest?_eq_findSome? : latest? f log = log.reverse.findSome? f := by
  induction log with
  | nil => rfl
  | cons a log ih =>
      rw [latest?_cons, List.reverse_cons, List.findSome?_append, ih]
      cases log.reverse.findSome? f with
      | none => cases h : f a <;> simp [h]
      | some b => rfl

theorem isLatest_congr {P Q : α → Prop} (h : ∀ x, P x ↔ Q x) (a : α) :
    IsLatest log P a ↔ IsLatest log Q a := by
  rw [show P = Q from funext fun x => propext (h x)]

/-- What the latest entry says, and which one it is. -/
theorem latest?_eq_some_iff_isLatest {b : β} :
    latest? f log = some b ↔ ∃ a, f a = some b ∧ IsLatest log (fun x => (f x).isSome) a := by
  rw [latest?_eq_some_iff]
  constructor
  · intro hex
    obtain ⟨before, a, after, hlog, ha, hafter⟩ := hex
    refine ⟨a, ha, before, after, hlog, by simp [ha], fun x hx => ?_⟩
    simp [hafter x hx]
  · intro hex
    obtain ⟨a, ha, before, after, hlog, -, hafter⟩ := hex
    exact ⟨before, a, after, hlog, ha, fun x hx => by simpa using hafter x hx⟩

/-! ## Records of fields -/

section Fields

variable {σ φ : Type} {V : φ → Type} {W : φ → Type} {step : σ → α → σ} {get : σ → (k : φ) → V k}
  {writes : (k : φ) → α → Option (W k)} {store : (k : φ) → W k → V k → V k}

/--
**The last write to a field wins.** Each entry stores a value in the fields it writes and leaves the
others alone; what is stored in a field replaces what was stored there before.
-/
theorem get_foldl
    (hstep : ∀ s a k, get (step s a) k =
      (writes k a).elim (get s k) fun w => store k w (get s k))
    (hstore : ∀ k w w' v, store k w (store k w' v) = store k w v) (s : σ) (log : List α) (k : φ) :
    get (log.foldl step s) k =
      (latest? (writes k) log).elim (get s k) fun w => store k w (get s k) := by
  induction log generalizing s with
  | nil => rfl
  | cons a log ih =>
      rw [List.foldl_cons, ih, hstep, latest?_cons]
      cases latest? (writes k) log with
      | none => rfl
      | some w =>
          cases writes k a with
          | none => rfl
          | some w' => exact hstore k w w' (get s k)

end Fields

end Latest
