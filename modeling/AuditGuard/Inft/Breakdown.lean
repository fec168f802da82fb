import AuditGuard.Inft.Model

/-!
# The breakdown of the payments of a job

`updatePaymentData` of `inft-service.js` over the objects that it is given. The update is spread over the payments
first, so that their breakdown is then the very array that the caller has passed, and it is to this array that the
passed one is appended. What the payments held before is gone, and what was passed is there twice. The other fields
hold what was passed last.
-/

namespace AuditGuard.Inft.Breakdown

/-- An array, which may be the one that the payments and a caller both have. -/
abbrev ArrayRef := ℕ

/-- What the arrays hold. -/
abbrev Memory (α : Type) := ArrayRef → List α

/-- `payments`, or an update of it: the array of the breakdown, and the other fields by their names. -/
structure PaymentData (β : Type) where
  fields : String → Option β
  breakdown : Option ArrayRef

/-- A call of `updatePaymentData`, with the array that it passes and what this array holds. -/
structure Call (α β : Type) where
  fields : String → Option β
  breakdown : Option (ArrayRef × List α)

/-- The arrays, and the payments of the job, if there are any. -/
structure Job (α β : Type) where
  memory : Memory α
  payments : Option (PaymentData β)

variable {α β : Type}

/-- `array.push(...entries)`. -/
def Memory.push (memory : Memory α) (array : ArrayRef) (entries : List α) : Memory α :=
  Function.update memory array (memory array ++ entries)

/-- `{}`. -/
def PaymentData.empty : PaymentData β := ⟨fun _ => none, none⟩

/-- `{ ...payments, ...paymentData }`. -/
def PaymentData.spread (payments paymentData : PaymentData β) : PaymentData β where
  fields name := (paymentData.fields name).or (payments.fields name)
  breakdown := paymentData.breakdown.or payments.breakdown

/-- `updatePaymentData`. -/
def Job.updatePaymentData (job : Job α β) (paymentData : PaymentData β) : Job α β :=
  let payments := (job.payments.getD .empty).spread paymentData
  match paymentData.breakdown, payments.breakdown with
  -- The array that is passed is read before anything is appended.
  | some passed, some array => ⟨job.memory.push array (job.memory passed), some payments⟩
  | _, _ => ⟨job.memory, some payments⟩

/-- The caller fills the array that it passes. -/
def Job.fill (job : Job α β) : Option (ArrayRef × List α) → Job α β
  | none => job
  | some (array, entries) => { job with memory := Function.update job.memory array entries }

/-- A caller fills its array and makes its call. -/
def Job.call (job : Job α β) (call : Call α β) : Job α β :=
  (job.fill call.breakdown).updatePaymentData ⟨call.fields, call.breakdown.map Prod.fst⟩

/-- The calls, one after the other. -/
def Job.calls (job : Job α β) (calls : List (Call α β)) : Job α β := calls.foldl Job.call job

/-- The entries of `payments.breakdown`. -/
def Job.breakdown (job : Job α β) : List α :=
  ((job.payments.bind PaymentData.breakdown).map job.memory).getD []

/-- Another field of `payments`. -/
def Job.field (job : Job α β) (name : String) : Option β := job.payments.bind fun payments => payments.fields name

/-- The breakdowns that were passed. -/
def passed (calls : List (Call α β)) : List (List α) := calls.filterMap fun call => call.breakdown.map Prod.snd

/-- The value that was passed last for the field. -/
def lastPassed (calls : List (Call α β)) (name : String) : Option β :=
  calls.reverse.findSome? fun call => call.fields name

/-- The breakdown goes on by what is passed, and every other field holds what was passed last. -/
structure AppendOnly (job : Job α β) (calls : List (Call α β)) : Prop where
  breakdown : (job.calls calls).breakdown = job.breakdown ++ (passed calls).flatten
  fields : ∀ name, (job.calls calls).field name = (lastPassed calls name).or (job.field name)

/-- A breakdown that is passed last is all that was there and was passed before it. -/
def LastRepeats (job : Job α β) (calls : List (Call α β)) : Prop :=
  ∀ last, (passed calls).getLast? = some last → last = job.breakdown ++ (passed calls).dropLast.flatten

/-! ## One call -/

theorem breakdown_call_none (job : Job α β) (call : Call α β) (h : call.breakdown = none) :
    (job.call call).breakdown = job.breakdown := by
  unfold Job.call
  rw [h]
  cases hpayments : job.payments with
  | none => simp [Job.fill, Job.updatePaymentData, Job.breakdown, PaymentData.spread, PaymentData.empty, hpayments]
  | some payments => simp [Job.fill, Job.updatePaymentData, Job.breakdown, PaymentData.spread, hpayments]

theorem breakdown_call_some (job : Job α β) (call : Call α β) {array : ArrayRef} {entries : List α}
    (h : call.breakdown = some (array, entries)) : (job.call call).breakdown = entries ++ entries := by
  unfold Job.call
  rw [h]
  -- The array of the payments is the one that was passed.
  simp [Job.fill, Job.updatePaymentData, Job.breakdown, PaymentData.spread, Memory.push]

theorem field_call (job : Job α β) (call : Call α β) (name : String) :
    (job.call call).field name = (call.fields name).or (job.field name) := by
  have hfill : (job.fill call.breakdown).payments = job.payments := by
    unfold Job.fill
    split <;> rfl
  have hupdate : (job.call call).payments =
      some ((job.payments.getD .empty).spread ⟨call.fields, call.breakdown.map Prod.fst⟩) := by
    unfold Job.call Job.updatePaymentData
    rw [hfill]
    dsimp only
    split <;> rfl
  unfold Job.field
  rw [hupdate]
  cases job.payments <;> rfl

/-! ## Every sequence of calls -/

theorem breakdown_calls (job : Job α β) (calls : List (Call α β)) :
    (job.calls calls).breakdown =
      (((passed calls).getLast?).map fun last => last ++ last).getD job.breakdown := by
  unfold Job.calls passed
  induction calls using List.reverseRecOn with
  | nil => rfl
  | append_singleton calls call ih =>
    rw [List.foldl_append, List.foldl_cons, List.foldl_nil, List.filterMap_append]
    cases h : call.breakdown with
    | none =>
      rw [breakdown_call_none _ call h, ih]
      simp [h]
    | some passed =>
      obtain ⟨array, entries⟩ := passed
      rw [breakdown_call_some _ call h]
      simp [h]

theorem field_calls (job : Job α β) (calls : List (Call α β)) (name : String) :
    (job.calls calls).field name = (lastPassed calls name).or (job.field name) := by
  unfold Job.calls lastPassed
  induction calls using List.reverseRecOn with
  | nil => rfl
  | append_singleton calls call ih =>
    rw [List.foldl_append, List.foldl_cons, List.foldl_nil, field_call, ih, List.reverse_append,
      List.reverse_singleton, List.singleton_append, List.findSome?_cons]
    cases call.fields name <;> rfl

/-- For every job and every sequence of calls: the breakdown goes on by what is passed and the other fields hold what
was passed last, if and only if no breakdown is passed, or the last one repeats all that there was before it. -/
theorem appendOnly_iff (job : Job α β) (calls : List (Call α β)) :
    AppendOnly job calls ↔ LastRepeats job calls := by
  have hbreakdown := breakdown_calls job calls
  constructor
  · intro h last hlast
    have hsplit : (passed calls).dropLast ++ [last] = passed calls := List.dropLast_append_getLast? last hlast
    have heq : last ++ last = (job.breakdown ++ (passed calls).dropLast.flatten) ++ last := by
      calc last ++ last = (job.calls calls).breakdown := by rw [hbreakdown, hlast]; rfl
        _ = job.breakdown ++ (passed calls).flatten := h.breakdown
        _ = job.breakdown ++ ((passed calls).dropLast ++ [last]).flatten := by rw [hsplit]
        _ = (job.breakdown ++ (passed calls).dropLast.flatten) ++ last := by simp
    exact List.append_cancel_right heq
  · intro h
    refine ⟨?_, field_calls job calls⟩
    cases hlast : (passed calls).getLast? with
    | none =>
      rw [hbreakdown, hlast, List.getLast?_eq_none_iff.mp hlast]
      simp
    | some last =>
      have hsplit : (passed calls).dropLast ++ [last] = passed calls := List.dropLast_append_getLast? last hlast
      calc (job.calls calls).breakdown = last ++ last := by rw [hbreakdown, hlast]; rfl
        _ = (job.breakdown ++ (passed calls).dropLast.flatten) ++ last := by rw [← h last hlast]
        _ = job.breakdown ++ ((passed calls).dropLast ++ [last]).flatten := by simp
        _ = job.breakdown ++ (passed calls).flatten := by rw [hsplit]

/-- A job without payments is paid for the first time, and its only payment is listed twice. -/
theorem not_appendOnly_first :
    ¬ ∀ (job : Job Payment ℚ) calls, job.payments = none → AppendOnly job calls := by
  intro hall
  have hbreakdown := (hall ⟨fun _ => [], none⟩ [⟨fun _ => none, some (0, [⟨0, "main_audit", 5⟩])⟩] rfl).breakdown
  have hlength := congrArg List.length hbreakdown
  exact absurd hlength (by decide +kernel)

end AuditGuard.Inft.Breakdown
