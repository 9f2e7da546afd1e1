import PredictX.Properties.IdempotentOrders

namespace PredictX.TradeForm

open PredictX.Data PredictX.MatchingEngine PredictX.OrderService

/-! The trade form of a market's page, from the submission to the stored order.

Of the form's state only what a submission carries is kept.  The quote and the display are left
out, and so is the check of the inputs: a submission here is a valid one.
-/

/-- A mounted form. -/
structure Form where
  /-- Memoised with no dependency: one `crypto.randomUUID()` for as long as it is mounted. -/
  clientOrderId : String
  minted : clientOrderId ≠ ""

structure Submission where
  data : OrderRequest
  maxSlippageValue : ℚ
  expectedPrice : ℚ
  /-- What the server meets the submission with. -/
  env : Env

/-- The payload of `onValid`. -/
def Form.onValid (form : Form) (submission : Submission) : OrderRequest :=
  { submission.data with
    clientOrderId := some form.clientOrderId
    maxSlippage :=
      if 0 < submission.maxSlippageValue then some submission.maxSlippageValue else none
    expectedPrice := if 0 < submission.expectedPrice then some submission.expectedPrice else none
    quoteId := none }

/-! What the submissions of one form store.

They all carry the form's key.  The first one stores an order under it, and each of the others is
answered with that order.
-/

/-- The submissions of one form, each answered with success before the next.  What the server does
in between places no order under the form's key. -/
inductive Submits (form : Form) (user : UserId) : Database → List Submission → Database → Prop
  | stop (db : Database) : Submits form user db [] db
  | elsewhere {db between final : Database} {submissions : List Submission}
      (keyless : (keyed user form.clientOrderId between).length =
        (keyed user form.clientOrderId db).length)
      (later : Submits form user between submissions final) :
      Submits form user db submissions final
  | submit {db final : Database} {submission : Submission} {rest : List Submission}
      {execution : Execution}
      (executed : executeOrder submission.env db user (form.onValid submission) = .ok execution)
      (later : Submits form user execution.db rest final) :
      Submits form user db (submission :: rest) final

section Submissions

variable {form : Form} {user : UserId} {db final : Database} {submission : Submission}
  {submissions : List Submission} {execution : Execution}

/-- A submission stores the first order under the key, or finds it. -/
theorem submit_keyed
    (executed : executeOrder submission.env db user (form.onValid submission) = .ok execution) :
    (keyed user form.clientOrderId execution.db).length =
      max 1 (keyed user form.clientOrderId db).length := by
  have carries : (form.onValid submission).clientOrderId = some form.clientOrderId := rfl
  obtain ⟨venue, -, -, -, ends⟩ := executeOrder_ok executed
  have looked : duplicateOf db user (form.onValid submission) =
      (keyed user form.clientOrderId db).head? := duplicateOf_eq carries form.minted
  obtain ⟨existing, found, rfl⟩ | ⟨unseen, -, filled⟩ := ends
  · have stored : existing ∈ keyed user form.clientOrderId db :=
      List.mem_of_head? (looked.symm.trans found)
    exact (max_eq_right (List.length_pos_of_mem stored)).symm
  · have empty : keyed user form.clientOrderId db = [] :=
      List.head?_eq_none_iff.mp (looked.symm.trans unseen)
    obtain ⟨length, -⟩ := fillOrder_keyed filled carries
    rw [length, empty]
    rfl

theorem submits_keyed (submits : Submits form user db submissions final) :
    (keyed user form.clientOrderId final).length =
      max (min 1 submissions.length) (keyed user form.clientOrderId db).length := by
  induction submits with
  | stop db => simp
  | elsewhere keyless later ih => rw [ih, keyless]
  | submit executed later ih =>
      rw [ih, submit_keyed executed, List.length_cons]
      omega

/-- As many orders are stored under the key of a freshly mounted form as it has been submitted
exactly when it has been submitted once at most. -/
theorem orders_eq_submissions_iff (submits : Submits form user db submissions final)
    (fresh : keyed user form.clientOrderId db = []) :
    (keyed user form.clientOrderId final).length = submissions.length ↔
      submissions.length ≤ 1 := by
  rw [submits_keyed submits, fresh, List.length_nil]
  omega

end Submissions

/-- A buy of five, at market. -/
def buyFive : Submission :=
  ⟨marketOrder .buy 5 pos_five grid_five, 0, 0, quietEnv⟩

def mountedForm : Form := ⟨"form", by decide⟩

theorem orders_eq_submissions_iff_of_one :
    ∃ final, Submits mountedForm 1 quotedMarket [buyFive] final ∧
      (keyed 1 "form" final).length = 1 := by
  have placed : succeedsWith (executeOrder quietEnv quotedMarket 1 (mountedForm.onValid buyFive))
      (fun _ => true) = true := by
    decide +kernel
  obtain ⟨first, executed, -⟩ := succeedsWith_iff.mp placed
  have submits : Submits mountedForm 1 quotedMarket [buyFive] first.db :=
    .submit executed (.stop _)
  exact ⟨first.db, submits, (orders_eq_submissions_iff submits (by decide)).mpr le_rfl⟩

/-- Two buys of five from one form, both answered with success, are one order. -/
theorem second_buy_is_lost :
    ∃ final, Submits mountedForm 1 quotedMarket [buyFive, buyFive] final ∧
      keyed 1 "form" quotedMarket = [] ∧ (keyed 1 "form" final).length = 1 := by
  have placed : succeedsWith (executeOrder quietEnv quotedMarket 1 (mountedForm.onValid buyFive) >>=
      fun first => executeOrder quietEnv first.db 1 (mountedForm.onValid buyFive))
      (fun _ => true) = true := by
    decide +kernel
  obtain ⟨second, ran, -⟩ := succeedsWith_iff.mp placed
  obtain ⟨first, executed, again⟩ := bind_eq_ok.mp ran
  have submits : Submits mountedForm 1 quotedMarket [buyFive, buyFive] second.db :=
    .submit executed (.submit again (.stop _))
  have fresh : keyed 1 "form" quotedMarket = [] := by decide
  refine ⟨second.db, submits, fresh, ?_⟩
  rw [show "form" = mountedForm.clientOrderId from rfl, submits_keyed submits]
  rw [show mountedForm.clientOrderId = "form" from rfl, fresh]
  rfl

end PredictX.TradeForm
