import Giftly.Serial.Holds

/-!
# What the requests about withdrawals do

`Drawing d r d'` says everything that `request_withdrawal`, `approve`, `reject` and `mark_paid` can do
to the database when they run alone and commit: one constructor for each outcome, with what the
function has checked of the rows it read. The amount of a withdrawal is held from its request to its
payout or its rejection, so `release_hold` is stated here as the code computes it, with its clamp;
that the clamp never takes effect is a result about runs.
-/

namespace Giftly

open Store
open WalletRepository MoneyService

/-- The row of a withdrawal was written. -/
def Db.setWithdrawal (id : Id) (x : Withdrawal) (d : Db) : Db :=
  { d with withdrawals := d.withdrawals.set id x }

/-- A withdrawal as a later status leaves it. -/
def Withdrawal.moved (x : Withdrawal) (status : WithdrawalStatus) (adminId : Id)
    (rejectionReason : Option Text) : Withdrawal :=
  { x with
    status := status, processedByAdminId := some adminId, rejectionReason := rejectionReason }

/-- What a request about withdrawals that commits alone has done to the database `d`. -/
inductive Drawing (d : Db) : Request → Db → Prop
  | idle {r} : Drawing d r d
  | requested {id k n key x w} (hfree : d.withdrawals.get? id = none)
      (hx : x.courierId = k ∧ x.status = .requested ∧ x.idempotencyKey = some key)
      (hrow : x.check = none)
      (hsole : ∀ j y, d.withdrawals.get? j = some y → y.courierId = k → y.idempotencyKey ≠ some key)
      (hw : d.books.walletOf k = some (x.walletId, w)) (hle : x.amount ≤ w.balance - w.heldBalance) :
      Drawing d (.requestWithdrawal id k n key)
        ((d.setHeld x.walletId w (w.heldBalance + x.amount)).setWithdrawal id x)
  | approved {id a x} (hx : d.withdrawals.get? id = some x) (hst : x.status = .requested)
      (hrow : (x.moved .approved a none).check = none) :
      Drawing d (.approveWithdrawal id a) (d.setWithdrawal id (x.moved .approved a none))
  | rejected {id a why x w} (hx : d.withdrawals.get? id = some x)
      (hst : x.status = .requested ∨ x.status = .approved)
      (hrow : (x.moved .rejected a (some why)).check = none)
      (hw : d.wallets.get? x.walletId = some w) :
      Drawing d (.rejectWithdrawal id a why)
        ((d.setHeld x.walletId w (max 0 (w.heldBalance - x.amount))).setWithdrawal id
          (x.moved .rejected a (some why)))
  | paid {c id a x g w d₁} (hx : d.withdrawals.get? id = some x) (hst : x.status = .approved)
      (hrow : (x.moved .paid a none).check = none) (hg : IsSystem d .systemGateway g)
      (hp : PostedGroup c (withdrawalLegs x.walletId g id x.amount) d d₁)
      (hw : d₁.wallets.get? x.walletId = some w)
      (hcheck : (w.setHeld (max 0 (w.heldBalance - x.amount))).check = none)
      (hadmin : (d.users.get? a).isSome = true) :
      Drawing d (.markPaid c id a)
        ((d₁.setHeld x.walletId w (max 0 (w.heldBalance - x.amount))).setWithdrawal id
          (x.moved .paid a none))

/-! ## The repository and the ledger service alone -/

section Alone

variable {m : Memory} {d : Db} {s : Settings} {refresh : Bool}

/-- `hold_funds` up to its flush: the amount is available. -/
theorem reserveFunds_ends {id : Id} {amount : Decimal} {Q : Wallet × Wallet → Memory → Db → Prop}
    (hc : Coherent m d)
    (h : ∀ m' n w, quantizeMoney amount = .ok n → d.wallets.get? id = some w →
      n ≤ w.balance - w.heldBalance → Coherent m' d → Q (w, w.setHeld (w.heldBalance + n)) m' d) :
    Ends (reserveFunds refresh id amount) Q m d := by
  unfold reserveFunds
  simp only [ends_bind, ends_ofExcept]
  intro n hn
  apply lockWallets_ends hc
  intro m₁ hc₁
  simp only [List.mem_singleton, if_true]
  cases hw : d.wallets.get? id with
  | none => trivial
  | some w =>
    simp only [ends_bind, ends_ofExcept, ends_require, Prog.pure_eq, ends_ret]
    intro available havailable hle held hheld
    -- Both quantizations are of differences and sums of halalas, so they are exact.
    rw [MoneyService.available, Dec.sub_cents] at havailable
    obtain ⟨rfl, -⟩ := eq_of_quantizeMoney_fix havailable
    rw [Dec.add_cents] at hheld
    obtain ⟨rfl, -⟩ := eq_of_quantizeMoney_fix hheld
    exact h m₁ n w hn hw hle hc₁

/-- An `UPDATE` of a held balance that is as it was read. -/
theorem updateWallet_setHeld {id : Id} {w : Wallet} {n : ℤ} (hw : d.wallets.get? id = some w) :
    d.updateWallet id (w.assign (w.setHeld n)) ((w.setHeld n).heldBalance - w.heldBalance) =
      d.setHeld id w n := by
  have hassign : w.assign (w.setHeld n) w = w.setHeld n := by simp [Wallet.assign, Wallet.setHeld]
  unfold Db.setHeld Db.updateWallet
  congr 1
  apply Table.mapRows_congr
  intro j v hv
  split_ifs with hj
  · obtain rfl : w = v := Option.some.inj (hw.symm.trans (hj ▸ hv))
    exact hassign
  · rfl

/-- A row that `set_status` writes from its own value. -/
theorem Withdrawal.assign_moved (x : Withdrawal) (st : WithdrawalStatus) (a : Id) (why : Option Text) :
    x.assign (x.moved st a why) x = x.moved st a why := by
  simp only [Withdrawal.assign, Withdrawal.moved, assign_self]

/-- The status of a withdrawal is set alone, by an administrator that is there. -/
theorem setStatus_ends {id a : Id} {x : Withdrawal} {st : WithdrawalStatus} {why : Option Text}
    {Q : Unit → Memory → Db → Prop} (hx : d.withdrawals.get? id = some x)
    (h : (d.users.get? a).isSome = true → (x.moved st a why).check = none →
      Q () m (d.setWithdrawal id (x.moved st a why))) :
    Ends (WithdrawalRepository.setStatus id x st a why) Q m d := by
  unfold WithdrawalRepository.setStatus
  apply updateRow_ends hx
  intro hcheck
  split_ifs at hcheck with hadmin
  have hrow : (x.assign (x.moved st a why) x).check = none := hcheck
  rw [x.assign_moved] at hrow
  have hset : d.updateWithdrawal id (x.assign (x.moved st a why)) =
      d.setWithdrawal id (x.moved st a why) := by
    unfold Db.updateWithdrawal Db.setWithdrawal
    rw [Table.update_eq_set hx (x.assign_moved st a why)]
  have hq := h hadmin hrow
  rw [← hset] at hq
  exact hq

/-- The constraints on a new withdrawal. -/
theorem checkNew_eq_none {x : Withdrawal} {key : Text} (hkey : x.idempotencyKey = some key)
    (h : WithdrawalRepository.checkNew x d = none) : x.check = none ∧
      ∀ j y, d.withdrawals.get? j = some y → y.courierId = x.courierId →
        y.idempotencyKey ≠ some key := by
  unfold WithdrawalRepository.checkNew at h
  split_ifs at h with hsome hrefs
  constructor
  · exact h
  · intro j y hy hcourier hykey
    have hfound : ∃ z, (d.withdrawals.find? fun _ v =>
        v.courierId = x.courierId && v.idempotencyKey = x.idempotencyKey) = some z :=
      Table.find?_isSome hy (by simp [hcourier, hykey, hkey])
    obtain ⟨z, hz⟩ := hfound
    rw [hz] at hsome
    exact hsome rfl

/-! ## The requests -/

/-- The flush of a request: the hold and the new row, or a replay. -/
theorem flushRequest_ends {id k : Id} {n : Decimal} {key : Text} {x : Withdrawal} {w : Wallet}
    (hx : x.courierId = k ∧ x.status = .requested ∧ x.idempotencyKey = some key)
    (hw : d.wallets.get? x.walletId = some w) (hof : d.books.walletOf k = some (x.walletId, w))
    (hle : x.amount ≤ w.balance - w.heldBalance) :
    Ends (WithdrawalService.flushRequest id x key w (w.setHeld (w.heldBalance + x.amount)))
      (fun _ _ d' => Drawing d (.requestWithdrawal id k n key) d') m d := by
  unfold WithdrawalService.flushRequest
  rw [ends_write]
  constructor
  -- The hold and the new row are written together.
  · intro hcheck
    rw [Option.or_eq_none_iff] at hcheck
    have hnew := hcheck.2
    split_ifs at hnew with hsome
    have hfree : d.withdrawals.get? id = none := by simpa using hsome
    obtain ⟨hrow, hsole⟩ := checkNew_eq_none hx.2.2 hnew
    rw [hx.1] at hsole
    have hpatch : ((d.updateWallet x.walletId (w.assign (w.setHeld (w.heldBalance + x.amount)))
        ((w.setHeld (w.heldBalance + x.amount)).heldBalance - w.heldBalance)).insertWithdrawal id x) =
        (d.setHeld x.walletId w (w.heldBalance + x.amount)).setWithdrawal id x := by
      have hinsert : ∀ d' : Db, d'.withdrawals.get? id = none →
          d'.insertWithdrawal id x = d'.setWithdrawal id x := by
        intro d' hfree'
        unfold Db.insertWithdrawal Db.setWithdrawal
        rw [Table.insert_eq_set x hfree']
      rw [updateWallet_setHeld hw]
      exact hinsert _ hfree
    rw [hpatch]
    exact .requested hfree hx hrow hsole hof hle
  · intro e _
    -- A violated constraint undoes the savepoint, and a replay is answered from the committed row.
    cases e with
    | integrity c =>
      simp only [ends_orm, ends_bind, WithdrawalRepository.getByIdempotency, ends_query]
      split
      · exact .idle
      · trivial
    | _ => trivial

/-- `request_withdrawal` alone. -/
theorem requestWithdrawal_drawing {id k : Id} {n : Decimal} {key : Text} (hc : Coherent m d) :
    Ends (WithdrawalService.requestWithdrawal refresh s id k n key)
      (fun _ _ d' => Drawing d (.requestWithdrawal id k n key) d') m d := by
  unfold WithdrawalService.requestWithdrawal WithdrawalRepository.getByIdempotency
  simp only [ends_bind, ends_query]
  -- A request under a key that is stored is answered from its row.
  split
  · exact .idle
  simp only [ends_bind, ends_ofExcept, ends_require]
  intro amount hamount _
  apply getByUser_ends hc
  intro m₁ hc₁
  split
  · trivial
  rename_i wid w hw
  have hof : d.books.walletOf k = some (wid, w) := hw
  have hrow : d.wallets.get? wid = some w := (Table.find?_eq_some hof).1
  rw [ends_bind]
  apply reserveFunds_ends hc₁
  intro m₂ a v ha hv hle _
  obtain rfl : w = v := Option.some.inj (hrow.symm.trans hv)
  obtain ⟨rfl, -⟩ := eq_of_quantizeMoney_money ha
  exact flushRequest_ends ⟨rfl, rfl, rfl⟩ hrow hof hle

/-- `_get_locked` alone. -/
theorem getLocked_ends {id : Id} {Q : Withdrawal → Memory → Db → Prop}
    (h : ∀ x, d.withdrawals.get? id = some x → Q x m d) :
    Ends (WithdrawalService.getLocked id) Q m d := by
  unfold WithdrawalService.getLocked WithdrawalRepository.getForUpdate
  simp only [ends_bind, ends_lock, ends_ret]
  cases hx : d.withdrawals.get? id with
  | none => trivial
  | some x => exact h x hx

/-- `approve` alone. -/
theorem approveWithdrawal_drawing {id a : Id} :
    Ends (WithdrawalService.approve id a)
      (fun _ _ d' => Drawing d (.approveWithdrawal id a) d') m d := by
  unfold WithdrawalService.approve
  rw [ends_bind]
  apply getLocked_ends
  intro x hx
  simp only [ends_ite, ends_bind, ends_require, Prog.pure_eq, ends_ret]
  -- What is approved already stays approved.
  refine ⟨fun _ => .idle, fun _ hst => ?_⟩
  exact setStatus_ends hx fun _ hrow => .approved hx hst hrow

/-- `reject` alone. -/
theorem rejectWithdrawal_drawing {id a : Id} {why : Text} (hc : Coherent m d) :
    Ends (WithdrawalService.reject refresh id a why)
      (fun _ _ d' => Drawing d (.rejectWithdrawal id a why) d') m d := by
  unfold WithdrawalService.reject
  rw [ends_bind]
  apply getLocked_ends
  intro x hx
  simp only [ends_ite, ends_bind, ends_require, Prog.pure_eq, ends_ret]
  refine ⟨fun _ => .idle, fun _ hst => ?_⟩
  apply releaseHold_ends hc
  intro m₁ n w hn hw _ _
  obtain ⟨rfl, -⟩ := eq_of_quantizeMoney_money hn
  exact setStatus_ends hx fun _ hrow => .rejected hx hst hrow hw

/-- `mark_paid` alone. -/
theorem markPaid_drawing {c id a : Id} (hc : Coherent m d) :
    Ends (WithdrawalService.markPaid refresh c id a)
      (fun _ _ d' => Drawing d (.markPaid c id a) d') m d := by
  unfold WithdrawalService.markPaid
  rw [ends_bind]
  apply getLocked_ends
  intro x hx
  simp only [ends_ite, ends_bind, ends_require, Prog.pure_eq, ends_ret]
  refine ⟨fun _ => .idle, fun _ hst => ?_⟩
  apply payWithdrawal_ends hc
  · intro m₁ _ _ hposted
    exact absurd hposted Bool.false_ne_true
  · intro m₁ g n d₁ w hn hg hp hw hcheck _ _
    obtain ⟨rfl, -⟩ := eq_of_quantizeMoney_money hn
    -- The group and the release write the wallets and the ledger alone.
    have hsame : (d₁.setHeld x.walletId w (max 0 (w.heldBalance - x.amount))).withdrawals.get? id =
        some x := by
      obtain ⟨ts, hposted⟩ := hp
      rw [hposted.eq]
      exact hx
    have husers : (d₁.setHeld x.walletId w (max 0 (w.heldBalance - x.amount))).users = d.users := by
      obtain ⟨ts, hposted⟩ := hp
      rw [hposted.eq]
      rfl
    apply setStatus_ends hsame
    intro hadmin hrow
    rw [husers] at hadmin
    exact .paid hx hst hrow hg hp hw hcheck hadmin

/-- What a request about withdrawals that commits alone does to the database. -/
theorem Request.drawing (r : Request) (hr : r.trades = false) :
    Ends (r.tx refresh s) (fun _ _ d' => Drawing d r d') .empty d := by
  have hc := Coherent.empty d
  cases r <;> simp only [Request.tx, Prog.void, ends_bind, ends_ret]
  case requestWithdrawal => exact requestWithdrawal_drawing hc
  case approveWithdrawal => exact approveWithdrawal_drawing
  case rejectWithdrawal => exact rejectWithdrawal_drawing hc
  case markPaid => exact markPaid_drawing hc
  all_goals cases hr

end Alone

/-- A request about withdrawals executed alone: nothing, or its effect. -/
theorem Request.exec_drawing {refresh : Bool} {s : Settings} {d : Db} {r : Request}
    (hr : r.trades = false) : Drawing d r (r.exec refresh s d) :=
  commit_of_ends (I := fun d' : Db => Drawing d r d') .idle (r.drawing hr)

end Giftly
