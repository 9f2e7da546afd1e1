import PredictX.Services.OrderSessions
import PredictX.Properties.ShareConservation

namespace PredictX.OrderService

open PredictX.Data PredictX.MatchingEngine

/-! A `client_order_id` places one order, however the calls that carry it interleave.

Only a call that holds the user's wallet can commit, and it has looked the key up since it
got the wallet.  So the lookup is still right when it commits.
-/

/-- The user's orders under a key. -/
def keyed (user : UserId) (key : String) (db : Database) : List Order :=
  db.orders.rows.filter fun order => order.userId = user && order.clientOrderId = some key

section Keyed

variable {user : UserId} {key : String} {db after : Database} {data : OrderRequest}

theorem duplicateOf_eq (carries : data.clientOrderId = some key) (nonempty : key ≠ "") :
    duplicateOf db user data = (keyed user key db).head? := by
  unfold duplicateOf keyed
  rw [carries, List.head?_filter]
  exact if_neg nonempty

theorem length_keyed_modify {id : OrderId} (update : Order → Order)
    (keeps : ∀ order, (update order).id = order.id)
    (owner : ∀ order, (update order).userId = order.userId)
    (same : ∀ order, (update order).clientOrderId = order.clientOrderId)
    (written : after.orders = db.orders.modify id update keeps) :
    (keyed user key after).length = (keyed user key db).length := by
  unfold keyed
  rw [written, ← List.countP_eq_length_filter, ← List.countP_eq_length_filter]
  simp only [Table.modify, List.countP_map]
  congr 1
  funext order
  simp only [Function.comp_apply]
  split
  · rw [owner, same]
  · rfl

theorem fillMaker_owner (now : Timestamp) (spent : ℚ) (order : Order) :
    (fillMaker now spent order).userId = order.userId ∧
      (fillMaker now spent order).clientOrderId = order.clientOrderId := by
  unfold fillMaker
  dsimp only
  split <;> exact ⟨rfl, rfl⟩

/-- Matching rewrites makers and leaves their keys. -/
theorem length_keyed_trace {now : Timestamp} {side : Side} {amount : ℚ} {taker : UserId}
    {fill final : BookFill} {offers : List Offer}
    (trace : Trace now (bookTaker side amount taker) db fill offers after final) :
    (keyed user key after).length = (keyed user key db).length := by
  induction trace with
  | done => rfl
  | skip _ _ _ ih => exact ih
  | @deliver db _ _ _ maker quantity _ _ _ _ _ ih =>
      refine ih.trans (length_keyed_modify (fillMaker now (makerSpent maker quantity
        (quantity * maker.price))) (fillMaker_id now _) ?_ ?_ rfl)
      · exact fun order => (fillMaker_owner now _ order).1
      · exact fun order => (fillMaker_owner now _ order).2

end Keyed

/-! # What a placed order stores -/

section Stored

variable {env : Env} {user : UserId} {key : String} {db : Database} {venue : Venue}
  {data : OrderRequest} {book : BookFill} {fill : Fill} {execution : Execution}

/-- The row a call inserts and names in its response. -/
structure Stores (user : UserId) (data : OrderRequest) (db : Database) (execution : Execution)
    (row : Order) : Prop where
  orders : execution.db.orders = db.orders.insert row
  fresh : db.orders.find? row.id = none
  owner : row.userId = user
  carries : row.clientOrderId = data.clientOrderId
  answered : execution.result.orderId = row.id

theorem restOrder_stores (rested : restOrder env db user venue data book = .ok execution) :
    ∃ row, Stores user data db execution row := by
  unfold restOrder at rested
  obtain ⟨locked, _, rested⟩ := bind_eq_ok.mp rested
  split at rested
  · contradiction
  rename_i limit _
  obtain ⟨orders, inserted, rested⟩ := bind_eq_ok.mp rested
  cases insertOrder_ok inserted
  cases rested
  exact ⟨restingRow env db user venue data book limit, rfl, nextOrderId_fresh db, rfl, rfl, rfl⟩

theorem finish_stores (finished : finish env db user venue data fill = .ok execution) :
    ∃ row, Stores user data db execution row := by
  unfold finish at finished
  dsimp only at finished
  split at finished
  · contradiction
  split at finished
  · contradiction
  split at finished
  · contradiction
  rename_i orders inserted
  cases insertOrder_ok inserted
  cases finished
  exact ⟨filledRow env db user venue data fill, creditReferral_orders _ _, nextOrderId_fresh db,
    rfl, rfl, rfl⟩

/-- Both branches that insert an order store one row, under the request's key. -/
theorem fillOrder_keyed (filled : fillOrder env db user venue data = .ok execution)
    (carries : data.clientOrderId = some key) :
    (keyed user key execution.db).length = (keyed user key db).length + 1 ∧
      ∃ order ∈ keyed user key execution.db, order.id = execution.result.orderId := by
  obtain ⟨matched, book, trace, ended⟩ := fillOrder_ok filled
  have stored : ∃ before row, before.orders = matched.orders ∧
      Stores user data before execution row := by
    rcases ended with ⟨_, _, rested⟩ | ⟨_, _, traded, leg, ran, finished⟩ | ⟨_, finished⟩
    · obtain ⟨row, stores⟩ := restOrder_stores rested
      exact ⟨matched, row, rfl, stores⟩
    · obtain ⟨row, stores⟩ := finish_stores finished
      exact ⟨traded, row, runAmmLeg_orders ran, stores⟩
    · obtain ⟨row, stores⟩ := finish_stores finished
      exact ⟨matched, row, rfl, stores⟩
  obtain ⟨before, row, sameOrders, stores⟩ := stored
  have rows : keyed user key execution.db = keyed user key matched ++ [row] := by
    unfold keyed
    rw [stores.orders, Table.insert_rows row stores.fresh, sameOrders, List.filter_append]
    simp [stores.owner, stores.carries, carries]
  refine ⟨?_, row, ?_, stores.answered.symm⟩
  · rw [rows, List.length_append, length_keyed_trace trace]
    rfl
  · rw [rows]
    exact List.mem_append_right _ (List.mem_singleton_self row)

end Stored

/-! # What a call knows -/

section Placements

variable {user : UserId} {key : String} {desk after : Desk} {session : PlaceSession}

structure PlaceKnows (user : UserId) (key : String) (desk : Desk) (session : PlaceSession) :
    Prop where
  carries : session.data.clientOrderId = some key
  looked : session.Reached .looked → session.existing = duplicateOf desk.db user session.data
  loaded : session.Reached .loaded → session.body = desk.db ∧ session.existing = none

theorem placeKnows_query {next : PlaceSession} (knows : PlaceKnows user key desk session)
    (asked : Looks user desk.db session next) : PlaceKnows user key desk next := by
  cases asked with
  | market stage priced =>
      refine ⟨knows.carries, ?_, ?_⟩
      all_goals
        intro reached
        exact absurd reached (by simp [PlaceSession.Reached, PlaceStage.rank])
  | pool stage =>
      refine ⟨knows.carries, ?_, ?_⟩
      all_goals
        intro reached
        exact absurd reached (by simp [PlaceSession.Reached, PlaceStage.rank])
  | wallet stage owner =>
      refine ⟨knows.carries, ?_, ?_⟩
      all_goals
        intro reached
        exact absurd reached (by simp [PlaceSession.Reached, PlaceStage.rank])
  | lookup stage =>
      refine ⟨knows.carries, fun _ => rfl, ?_⟩
      exact fun reached => absurd reached (by simp [PlaceSession.Reached, PlaceStage.rank])
  | load stage unseen =>
      have looked : session.Reached .looked := by
        rw [PlaceSession.Reached, stage]
      exact ⟨knows.carries, fun _ => knows.looked looked, fun _ => ⟨rfl, unseen⟩⟩

theorem holds_wallet (looked : session.Reached .looked) :
    session.holds user (.wallet user) := by
  have order : PlaceStage.wallet.rank ≤ PlaceStage.looked.rank := by decide
  exact ⟨order.trans looked, rfl⟩

theorem looked_of_places (placed : Places user desk session after) :
    session.Reached .looked := by
  unfold PlaceSession.Reached
  cases placed with
  | duplicate stage opened seen => rw [stage]
  | place stage opened quoted held filled =>
      rw [stage]
      decide

theorem placeKnows_fresh (begun : session.stage = .begun)
    (carries : session.data.clientOrderId = some key) : PlaceKnows user key desk session := by
  refine ⟨carries, ?_, ?_⟩
  all_goals
    intro reached
    rw [PlaceSession.Reached, begun] at reached
    exact absurd reached (by decide)

/-- The user's wallet is the gate: two calls cannot both be past it. -/
theorem placeKnows_stable {writer : PlaceSession} (knows : PlaceKnows user key desk session)
    (apart : (placements user key).Apart session writer)
    (placed : Places user desk writer after) : PlaceKnows user key after session := by
  have free : ¬ session.Reached .looked := fun looked =>
    apart (.wallet user) (holds_wallet looked) (holds_wallet (looked_of_places placed))
  have order : PlaceStage.looked.rank ≤ PlaceStage.loaded.rank := by decide
  exact ⟨knows.carries, fun looked => absurd looked free,
    fun loaded => absurd (order.trans loaded) free⟩

def serialPlacements (user : UserId) (key : String) : (placements user key).Serial where
  Knows := PlaceKnows user key
  fresh := fun fresh => placeKnows_fresh fresh.1 fresh.2
  query := placeKnows_query
  stable := fun knows _ apart placed => placeKnows_stable knows apart placed

/-! # One order for each key -/

/-- Every response so far names the order stored under the key. -/
structure OnePlaced (user : UserId) (key : String) (desk : Desk) : Prop where
  unique : (keyed user key desk.db).length ≤ 1
  answered : ∀ answer ∈ desk.answers, ∃ order ∈ keyed user key desk.db,
    order.id = answer.orderId

/-- A commit stores the order, or finds it and changes nothing. -/
theorem places_cases (nonempty : key ≠ "") (knows : PlaceKnows user key desk session)
    (placed : Places user desk session after) :
    (∃ answer, after.answers = desk.answers ++ [answer] ∧ keyed user key desk.db = [] ∧
      (keyed user key after.db).length = 1 ∧
      ∃ order ∈ keyed user key after.db, order.id = answer.orderId) ∨
    (∃ answer, after = ⟨desk.db, desk.answers ++ [answer]⟩ ∧ answer.status = .duplicate ∧
      ∃ order ∈ keyed user key desk.db, order.id = answer.orderId) := by
  have found := knows.looked (looked_of_places placed)
  rw [duplicateOf_eq knows.carries nonempty] at found
  cases placed with
  | @duplicate _ existing stage opened seen =>
      refine .inr ⟨_, rfl, rfl, existing, ?_, rfl⟩
      exact List.mem_of_head? (found.symm.trans seen)
  | @place _ execution stage opened quoted held filled =>
      obtain ⟨current, unseen⟩ := knows.loaded (by rw [PlaceSession.Reached, stage])
      have none_ : keyed user key desk.db = [] :=
        List.head?_eq_none_iff.mp (found.symm.trans unseen)
      rw [current] at filled
      obtain ⟨length, stored⟩ := fillOrder_keyed filled knows.carries
      rw [none_] at length
      exact .inl ⟨execution.result, rfl, none_, length, stored⟩

theorem places_onePlaced (nonempty : key ≠ "") (knows : PlaceKnows user key desk session)
    (placed : Places user desk session after) (one : OnePlaced user key desk) :
    OnePlaced user key after := by
  rcases places_cases nonempty knows placed with
    ⟨answer, log, none_, length, order, member, named⟩ | ⟨answer, rfl, _, stored⟩
  · have unanswered : desk.answers = [] := by
      refine List.eq_nil_iff_forall_not_mem.mpr fun earlier given => ?_
      obtain ⟨_, impossible, _⟩ := one.answered earlier given
      rw [none_] at impossible
      exact List.not_mem_nil impossible
    refine ⟨length.le, ?_⟩
    intro given isGiven
    rw [log, unanswered, List.nil_append, List.mem_singleton] at isGiven
    exact ⟨order, member, isGiven ▸ named⟩
  · refine ⟨one.unique, ?_⟩
    intro given isGiven
    rcases List.mem_append.mp isGiven with earlier | last
    · exact one.answered given earlier
    · rw [List.mem_singleton.mp last]
      exact stored

/-- Once an order is stored under the key, every later commit is a duplicate of it. -/
structure Repeated (user : UserId) (key : String) (middle desk : Desk) (order : Order) : Prop where
  unchanged : desk.db = middle.db
  answers : ∃ more, desk.answers = middle.answers ++ more ∧
    ∀ answer ∈ more, answer.status = .duplicate ∧ answer.orderId = order.id

theorem places_repeated {middle : Desk} {order : Order} (nonempty : key ≠ "")
    (unique : (keyed user key middle.db).length ≤ 1) (stored : order ∈ keyed user key middle.db)
    (knows : PlaceKnows user key desk session) (placed : Places user desk session after)
    (repeated : Repeated user key middle desk order) : Repeated user key middle after order := by
  obtain ⟨unchanged, more, log, duplicates⟩ := repeated
  rcases places_cases nonempty knows placed with
    ⟨_, _, none_, _⟩ | ⟨answer, rfl, isDuplicate, found, member, named⟩
  · rw [unchanged] at none_
    rw [none_] at stored
    exact absurd stored List.not_mem_nil
  · rw [unchanged] at member
    have same : found = order := by
      obtain ⟨single, isSingle⟩ := List.length_eq_one_iff.mp
        (le_antisymm unique (List.length_pos_of_mem stored))
      rw [isSingle, List.mem_singleton] at member stored
      rw [member, stored]
    refine ⟨unchanged, more ++ [answer], by rw [log, List.append_assoc], ?_⟩
    intro given isGiven
    rcases List.mem_append.mp isGiven with earlier | last
    · exact duplicates given earlier
    · rw [List.mem_singleton.mp last]
      exact ⟨isDuplicate, by rw [← named, same]⟩

/-- However a user's calls under one key interleave, at most one order is stored under it, and
once there is one every call that commits answers with it and writes nothing. -/
theorem order_placed_once {start : Database} {earlier later : List Protocol.Move}
    {middle final : (placements user key).State} (nonempty : key ≠ "")
    (unique : (keyed user key start).length ≤ 1)
    (before : Run (placements user key).Interleaves (fun _ _ => True)
      (Protocol.State.idle ⟨start, []⟩) earlier middle)
    (after : Run (placements user key).Interleaves (fun _ _ => True) middle later final) :
    OnePlaced user key middle.shared ∧
      ∀ order ∈ keyed user key middle.shared.db,
        Repeated user key middle.shared final.shared order := by
  obtain ⟨sound, one⟩ := (serialPlacements user key).invariant_from (OnePlaced user key)
    (fun knows placed earlier => places_onePlaced nonempty knows placed earlier)
    ((serialPlacements user key).sound_idle _) before
    ⟨unique, fun _ given => absurd given List.not_mem_nil⟩
  refine ⟨one, fun order stored => ?_⟩
  refine ((serialPlacements user key).invariant_from
    (fun desk => Repeated user key middle.shared desk order) ?_ sound after ?_).2
  · exact fun knows placed repeated =>
      places_repeated nonempty one.unique stored knows placed repeated
  · exact ⟨rfl, [], (List.append_nil _).symm, fun _ given => absurd given List.not_mem_nil⟩

/-- An undisturbed call is `execute_order`. -/
theorem call_runs_alone (desk : Desk) {env : Env} {data : OrderRequest} {execution : Execution}
    (carries : data.clientOrderId = some key)
    (executed : executeOrder env desk.db user data = .ok execution) :
    ∃ moves, Run (placements user key).Interleaves (fun _ _ => True) (Protocol.State.idle desk)
      moves (Protocol.State.idle ⟨execution.db, desk.answers ++ [execution.result]⟩) := by
  unfold executeOrder at executed
  split at executed
  · contradiction
  rename_i priced
  obtain ⟨venue, opened, executed⟩ := bind_eq_ok.mp executed
  split at executed
  · contradiction
  rename_i walleted
  let call (stage : PlaceStage) (existing : Option Order) : PlaceSession :=
    ⟨env, data, stage, desk.db, existing, desk.db⟩
  have owner : (desk.db.wallets.find? user).isSome = true := by
    simpa [Option.isSome_iff_ne_none] using walleted
  have looks : Relation.ReflTransGen (Looks user desk.db) (call .begun none)
      (call .looked (duplicateOf desk.db user data)) := by
    refine .head (b := call .market none) (.market rfl priced) ?_
    refine .head (b := call .pool none) (.pool rfl) ?_
    refine .head (b := call .wallet none) (.wallet rfl owner) ?_
    exact .single (.lookup rfl)
  split at executed
  · rename_i existing found
    cases executed
    rw [found] at looks
    exact Protocol.run_alone _ _ ⟨rfl, carries⟩ looks (.duplicate rfl opened rfl)
  · rename_i unseen
    obtain ⟨_, quoted, executed⟩ := bind_eq_ok.mp executed
    obtain ⟨_, held, filled⟩ := bind_eq_ok.mp executed
    rw [unseen] at looks
    exact Protocol.run_alone _ (call .loaded none) ⟨rfl, carries⟩ (looks.tail (.load rfl rfl))
      (.place rfl opened quoted held filled)

end Placements

/-- The same buy sent twice: the second call answers with the first one's order. -/
theorem repeated_buy_is_duplicate :
    let buy := { marketOrder .buy 5 pos_five grid_five with
      clientOrderId := some "retry" }
    ∃ first second : Execution, ∃ earlier later,
      executeOrder quietEnv quotedMarket 1 buy = .ok first ∧
      executeOrder quietEnv first.db 1 buy = .ok second ∧
      second.result.status = .duplicate ∧
      Run (placements 1 "retry").Interleaves (fun _ _ => True)
        (Protocol.State.idle ⟨quotedMarket, []⟩) earlier
        (Protocol.State.idle ⟨first.db, [first.result]⟩) ∧
      Run (placements 1 "retry").Interleaves (fun _ _ => True)
        (Protocol.State.idle ⟨first.db, [first.result]⟩) later
        (Protocol.State.idle ⟨second.db, [first.result, second.result]⟩) ∧
      OnePlaced 1 "retry" ⟨first.db, [first.result]⟩ ∧
      ∀ order ∈ keyed 1 "retry" first.db,
        Repeated 1 "retry" ⟨first.db, [first.result]⟩
          ⟨second.db, [first.result, second.result]⟩ order := by
  intro buy
  have both : succeedsWith (executeOrder quietEnv quotedMarket 1 buy >>= fun first =>
      executeOrder quietEnv first.db 1 buy)
      (fun second => second.result.status = .duplicate) = true := by
    decide +kernel
  obtain ⟨second, ran, isDuplicate⟩ := succeedsWith_iff.mp both
  obtain ⟨first, placed, again⟩ := bind_eq_ok.mp ran
  obtain ⟨earlier, before⟩ := call_runs_alone ⟨quotedMarket, []⟩ rfl placed
  obtain ⟨later, after⟩ := call_runs_alone ⟨first.db, [first.result]⟩ rfl again
  exact ⟨first, second, earlier, later, placed, again, by simpa using isDuplicate, before, after,
    order_placed_once (by decide) (by decide) before after⟩

end PredictX.OrderService
