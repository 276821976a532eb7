/-
  ConfigTemplate.Proofs.Traced — the result of a traced computation, step by step.

  (1) `result_bind`, `bind_ok`, `bind_error`: what a computation in two steps returns. It
      returns a value when both steps do; it fails with the first failure.
  (2) `result_pure`, `result_fail`, `result_report`, `result_ofExcept`: the results of the
      single steps.
  (3) `events_bind_ok`, `events_bind_error`: what it reports. The second step adds its
      events to those of the first, unless the first has failed.
-/
import ConfigTemplate.Log.Traced

namespace ConfigTemplate.Log.Traced

variable {ε α β : Type}

@[simp] theorem result_pure (a : α) : (pure a : Traced ε α).result = .ok a := rfl

@[simp] theorem result_fail (e : ε) : (fail e : Traced ε α).result = .error e := rfl

@[simp] theorem result_report (event : Event) : (report event : Traced ε Unit).result = .ok () := rfl

@[simp] theorem result_ofExcept (x : Except ε α) : (ofExcept x).result = x := by cases x <;> rfl

theorem result_bind (t : Traced ε α) (f : α → Traced ε β) :
    (t >>= f).result = t.result >>= fun a => (f a).result := by
  show (t.bind f).result = _
  unfold Traced.bind
  cases t.result with
  | ok a => rfl
  | error e => rfl

@[simp] theorem bind_ok {t : Traced ε α} {f : α → Traced ε β} {b : β} :
    (t >>= f).result = .ok b ↔ ∃ a, t.result = .ok a ∧ (f a).result = .ok b := by
  show (t.bind f).result = _ ↔ _
  unfold Traced.bind
  cases h : t.result with
  | ok a => simp
  | error e => simp

@[simp] theorem bind_error {t : Traced ε α} {f : α → Traced ε β} {e : ε} :
    (t >>= f).result = .error e ↔ t.result = .error e ∨ ∃ a, t.result = .ok a ∧ (f a).result = .error e := by
  show (t.bind f).result = _ ↔ _
  unfold Traced.bind
  cases h : t.result with
  | ok a => simp
  | error e' => simp

/-- A computation returns a value exactly when it has no failure. -/
theorem ok_iff_not_error (t : Traced ε α) : (∃ a, t.result = .ok a) ↔ ∀ e, t.result ≠ .error e := by
  cases h : t.result with
  | ok a => simp
  | error e => simp

@[simp] theorem events_pure (a : α) : (pure a : Traced ε α).events = [] := rfl

@[simp] theorem events_fail (e : ε) : (fail e : Traced ε α).events = [] := rfl

@[simp] theorem events_report (event : Event) : (report event : Traced ε Unit).events = [event] := rfl

theorem events_bind_ok {t : Traced ε α} {a : α} (h : t.result = .ok a) (f : α → Traced ε β) :
    (t >>= f).events = t.events ++ (f a).events := by
  show (t.bind f).events = _
  rw [Traced.bind, h]

theorem events_bind_error {t : Traced ε α} {e : ε} (h : t.result = .error e) (f : α → Traced ε β) :
    (t >>= f).events = t.events := by
  show (t.bind f).events = _
  rw [Traced.bind, h]

/-- A step that reports nothing leaves the events as they are, whether it is reached or not. -/
theorem events_bind_silent (t : Traced ε α) {f : α → Traced ε β} (h : ∀ a, (f a).events = []) :
    (t >>= f).events = t.events := by
  cases ht : t.result with
  | ok a => rw [events_bind_ok ht, h, List.append_nil]
  | error e => rw [events_bind_error ht]

end ConfigTemplate.Log.Traced
