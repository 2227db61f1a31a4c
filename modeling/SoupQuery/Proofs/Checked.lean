import SoupQuery.Checked

/-!
# Laws of checked results

When a combination of checked results has a value, and that it never fails without a reason.

* `Checked.Reports` — a failed result names at least one error.
* `map_eq_ok`, `bind_eq_ok`, `zip_eq_ok` — the value of a combination comes from values.
* `mem_of_partition` — every value of a partition is the value of some result.
* `partition_eq_ok` — if all results report, a partition has values exactly if they all do.
* `exists_of_partition` — then no result is left out.
* `errors_zip`, `errors_partition` — the errors of a combination are those of its parts, in order.
* `partition_flatMap` — partitions in groups come to the same as one partition.
* `zip_map`, `partition_map` — what is done to the values can be done before or after.
-/

namespace SoupQuery.Checked

variable {ε α β : Type}

/-- If the result is no value, it names an error. -/
def Reports (result : Checked ε α) : Prop := result ≠ .error []

theorem fail_reports (error : ε) : Reports (fail error : Checked ε α) := by
  intro h
  cases h

theorem ok_reports (value : α) : Reports (.ok value : Checked ε α) := by
  intro h
  cases h

theorem map_reports {result : Checked ε α} (h : result.Reports) (f : α → β) :
    Reports (Except.map f result : Checked ε β) := by
  cases result with
  | ok value => exact ok_reports (f value)
  | error reasons =>
    intro he
    cases he
    exact h rfl

theorem map_eq_ok {result : Checked ε α} {f : α → β} {b : β} :
    (Except.map f result : Checked ε β) = .ok b ↔ ∃ a, result = .ok a ∧ f a = b := by
  cases result <;> simp [Except.map]

theorem bind_eq_ok {result : Checked ε α} {f : α → Checked ε β} {b : β} :
    (result >>= f) = .ok b ↔ ∃ a, result = .ok a ∧ f a = .ok b := by
  cases result <;> simp [bind, Except.bind]

theorem bind_reports {result : Checked ε α} {f : α → Checked ε β} (h : result.Reports)
    (hf : ∀ value, (f value).Reports) : Reports (result >>= f) := by
  cases result with
  | ok value => exact hf value
  | error reasons =>
    intro he
    cases he
    exact h rfl

/-! ## Two results -/

theorem zip_eq_ok {first : Checked ε α} {second : Checked ε β} {a : α} {b : β} :
    zip first second = .ok (a, b) ↔ first = .ok a ∧ second = .ok b := by
  cases first <;> cases second <;> simp [zip]

theorem zip_reports {first : Checked ε α} {second : Checked ε β} (h₁ : first.Reports)
    (h₂ : second.Reports) : (zip first second).Reports := by
  cases first with
  | ok a =>
    cases second with
    | ok b => exact ok_reports (a, b)
    | error reasons =>
      intro he
      simp only [zip, errors, List.nil_append, Except.error.injEq] at he
      exact h₂ (he ▸ rfl)
  | error reasons =>
    intro he
    simp only [zip, errors, Except.error.injEq, List.append_eq_nil_iff] at he
    exact h₁ (he.1 ▸ rfl)

/-! ## Many results -/

theorem partition_reports (results : List (Checked ε α)) : (partition results).Reports := by
  unfold partition
  split
  · exact ok_reports _
  · rename_i h
    intro he
    exact h (Except.error.inj he)

theorem mem_of_partition {results : List (Checked ε α)} {values : List α}
    (h : partition results = .ok values) {value : α} (hvalue : value ∈ values) :
    .ok value ∈ results := by
  unfold partition at h
  split at h
  · cases h
    obtain ⟨result, hresult, hv⟩ := List.mem_filterMap.1 hvalue
    cases result with
    | ok a => cases hv; exact hresult
    | error errors => cases hv
  · cases h

theorem partition_map_ok (values : List α) :
    partition (values.map (Except.ok : α → Checked ε α)) = .ok values := by
  have herrors : (values.map (Except.ok : α → Checked ε α)).flatMap errors = [] := by
    simp [List.flatMap_eq_nil_iff, errors]
  have hvalues : (values.map (Except.ok : α → Checked ε α)).filterMap value? = values := by
    induction values with
    | nil => rfl
    | cons value values ih => simp_all [value?]
  unfold partition
  rw [herrors, hvalues]

/-- **A partition has values exactly if every result has one**, provided that every failed result
names an error. -/
theorem partition_eq_ok {results : List (Checked ε α)} {values : List α}
    (hreports : ∀ result ∈ results, result.Reports) :
    partition results = .ok values ↔ results = values.map .ok := by
  constructor
  · intro h
    unfold partition at h
    split at h
    · rename_i hnil
      cases h
      rw [List.flatMap_eq_nil_iff] at hnil
      induction results with
      | nil => rfl
      | cons result results ih =>
        have hrest := ih (fun r hr => hreports r (List.mem_cons_of_mem _ hr))
          (fun r hr => hnil r (List.mem_cons_of_mem _ hr))
        cases result with
        | ok a => simpa [value?] using hrest
        | error reasons =>
          have hreasons : reasons = [] := hnil _ (List.mem_cons_self ..)
          exact absurd (hreasons ▸ rfl) (hreports _ (List.mem_cons_self ..))
    · cases h
  · rintro rfl
    exact partition_map_ok values

theorem partition_map_eq_ok {f : α → Checked ε β} (hf : ∀ item, (f item).Reports)
    {items : List α} {values : List β} :
    partition (items.map f) = .ok values ↔ items.map f = values.map .ok := by
  refine partition_eq_ok fun result hresult => ?_
  obtain ⟨item, -, rfl⟩ := List.mem_map.1 hresult
  exact hf item

theorem exists_of_partition {results : List (Checked ε α)} {values : List α}
    (hreports : ∀ result ∈ results, result.Reports) (h : partition results = .ok values)
    {result : Checked ε α} (hresult : result ∈ results) :
    ∃ value ∈ values, result = .ok value := by
  rw [(partition_eq_ok hreports).1 h] at hresult
  obtain ⟨value, hvalue, rfl⟩ := List.mem_map.1 hresult
  exact ⟨value, hvalue, rfl⟩

/-! ## Errors -/

theorem errors_map (f : α → β) (result : Checked ε α) :
    errors (Except.map f result : Checked ε β) = errors result := by
  cases result <;> rfl

theorem errors_zip (first : Checked ε α) (second : Checked ε β) :
    errors (zip first second) = errors first ++ errors second := by
  cases first <;> cases second <;> rfl

theorem errors_partition (results : List (Checked ε α)) :
    errors (partition results) = results.flatMap errors := by
  unfold partition
  split
  · rename_i h
    rw [h]
    rfl
  · rfl

/-- A result that reports has a value exactly if it has no errors. -/
theorem Reports.exists_ok_iff {result : Checked ε α} (h : result.Reports) :
    (∃ value, result = .ok value) ↔ errors result = [] := by
  cases result with
  | ok value => exact ⟨fun _ => rfl, fun _ => ⟨value, rfl⟩⟩
  | error reasons =>
    constructor
    · rintro ⟨value, hok⟩
      cases hok
    · intro hreasons
      exact absurd (congrArg Except.error hreasons) h

/-- A result that reports has failed exactly if it has errors, and then with these. -/
theorem Reports.eq_error_iff {result : Checked ε α} (h : result.Reports) {reasons : List ε} :
    result = .error reasons ↔ errors result = reasons ∧ reasons ≠ [] := by
  cases result with
  | ok value =>
    constructor
    · intro herror
      cases herror
    · rintro ⟨rfl, hne⟩
      exact absurd rfl hne
  | error others =>
    constructor
    · intro herror
      cases herror
      exact ⟨rfl, fun hnil => h (congrArg Except.error hnil)⟩
    · rintro ⟨rfl, -⟩
      rfl

/-! ## Values of parts -/

section Map

variable {γ δ : Type}

theorem map_map (f : α → β) (g : β → γ) (result : Checked ε α) :
    (Except.map g (Except.map f result : Checked ε β) : Checked ε γ) =
      Except.map (g ∘ f) result := by
  cases result <;> rfl

theorem zip_map (f : α → γ) (g : β → δ) (first : Checked ε α) (second : Checked ε β) :
    zip (Except.map f first : Checked ε γ) (Except.map g second : Checked ε δ) =
      Except.map (Prod.map f g) (zip first second) := by
  cases first <;> cases second <;> rfl

theorem zip_map_right (g : β → δ) (first : Checked ε α) (second : Checked ε β) :
    zip first (Except.map g second : Checked ε δ) =
      Except.map (Prod.map id g) (zip first second) := by
  cases first <;> cases second <;> rfl

theorem value?_map (f : α → β) (result : Checked ε α) :
    value? (Except.map f result : Checked ε β) = (value? result).map f := by
  cases result <;> rfl

theorem partition_map (f : α → β) (results : List (Checked ε α)) :
    partition (results.map (Except.map f)) =
      (Except.map (List.map f) (partition results) : Checked ε (List β)) := by
  have herrors : (results.map (Except.map f)).flatMap (errors : Checked ε β → List ε) =
      results.flatMap errors := by
    rw [List.flatMap_map]
    exact congrArg results.flatMap (funext (errors_map f))
  have hvalues : (results.map (Except.map f)).filterMap (value? : Checked ε β → Option β) =
      (results.filterMap value?).map f := by
    rw [List.filterMap_map, List.map_filterMap]
    exact congrArg (results.filterMap ·) (funext (value?_map f))
  unfold partition
  rw [herrors, hvalues]
  cases results.flatMap errors <;> rfl

end Map

/-! ## Partitions in groups -/

theorem partition_append (first second : List (Checked ε α)) : partition (first ++ second) =
    Except.map (fun pair => pair.1 ++ pair.2) (zip (partition first) (partition second)) := by
  unfold partition
  rw [List.flatMap_append, List.filterMap_append]
  cases first.flatMap errors with
  | nil => cases second.flatMap errors <;> rfl
  | cons error reasons => cases second.flatMap errors <;> simp [zip, errors, Except.map]

theorem partition_singleton {result : Checked ε α} (hresult : result.Reports) :
    partition [result] = Except.map (fun value => [value]) result := by
  cases result with
  | ok value => rfl
  | error reasons =>
    cases reasons with
    | nil => exact absurd rfl hresult
    | cons error reasons => simp [partition, errors, Except.map]

theorem partition_cons {result : Checked ε α} (hresult : result.Reports)
    (results : List (Checked ε α)) : partition (result :: results) =
      Except.map (fun pair => pair.1 :: pair.2) (zip result (partition results)) := by
  rw [← List.singleton_append, partition_append, partition_singleton hresult]
  cases result <;> cases partition results <;> rfl

/-- **Partitions in groups come to the same as one partition.** -/
theorem partition_flatMap {γ : Type} (items : List γ) (f : γ → List (Checked ε α)) :
    partition (items.flatMap f) =
      Except.map List.flatten (partition (items.map fun item => partition (f item))) := by
  induction items with
  | nil => rfl
  | cons item items ih =>
    rw [List.flatMap_cons, partition_append, ih, List.map_cons,
      partition_cons (partition_reports (f item))]
    cases partition (f item) <;> cases partition (items.map fun item => partition (f item)) <;> rfl

end SoupQuery.Checked
