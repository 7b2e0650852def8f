import Giftly.Auth.Budget

/-!
# Single use and five guesses

The interleaved calls of `Otp.lean` against the budget of `Budget.lean`. Two things between two
commands break the budget. A request replaces the code and then deletes the counter, so guesses that
were counted before, or that are compared between the two commands, are not on the new counter. And
the `GET` of `verify_otp` is not the `DEL`: two calls with the right code both read it before either
deletes it, and both return `True`.

`Careful` is the condition that neither happens in a step. `budget_step` shows that a careful step is
a step of the budget, and `issued_code_spent_once` is the result about runs.
-/

namespace Giftly.Otp

open Store (Cell)

/-! ## The budget of a state -/

/-- How far a call has come that may issue a code. -/
def Call.stage : Call → Stage
  | .request _ .delAttempts => .issued
  | .request _ .sendOtp => .armed
  | .request _ (.returned (.ok _)) => .armed
  | _ => .unissued

/-- A call has drawn a number up to five since the counter was last deleted, and not used it. -/
def Call.holdsTicket (resets : ℕ) : Call → Bool
  | .verify _ (.ttlAttempts attempts since) => attempts ≤ 5 && since = resets
  | .verify _ (.expireAttempts attempts since) => attempts ≤ 5 && since = resets
  | .verify _ (.getCode since) => since = resets
  | _ => false

/-- The code that fitted the guess of a call which has not deleted it yet. -/
def Call.matching : Call → Option ℕ
  | .verify _ (.delCodeAttempts issue) => some issue
  | _ => none

/-- The code that a call has deleted and is about to accept. -/
def Call.consuming : Call → Option ℕ
  | .verify _ (.delRate issue) => some issue
  | _ => none

/-- What the deletions of the counter were when a call drew its number. -/
def Call.since : Call → Option ℕ
  | .verify _ (.ttlAttempts _ since) => some since
  | .verify _ (.expireAttempts _ since) => some since
  | .verify _ (.getCode since) => some since
  | _ => none

/-- The stage of the code of every call. -/
def stageOf (calls : List Call) (x : ℕ) : Stage := (calls[x]?.map Call.stage).getD .unissued

/-- The number of calls that are at some point with a code. -/
def countOf (f : Call → Option ℕ) (calls : List Call) (x : ℕ) : ℕ :=
  calls.countP fun c => f c = some x

/-- The budget that a state has. -/
def System.budget (s : System) : Budget where
  now := s.now
  code := s.keys.code
  attempts := s.keys.attempts
  stage := stageOf s.calls
  tickets := s.calls.countP (Call.holdsTicket s.resets)
  matched := countOf Call.matching s.calls
  consumed := countOf Call.consuming s.calls
  compared x := s.compared.count x
  accepted x := s.accepted.count x

/-- The condition on a step. A `DEL` of the counter by a request finds no code that a guess was
already compared with. A `GET` that finds a code was paid for since the counter was last deleted, the
request that issued the code has deleted the counter, and if the guess fits, no other call is between
its `GET` of that code and its `DEL`. -/
def Careful (env : Env) (s : System) (i : ℕ) : Prop :=
  match s.calls[i]? with
  | some (.request _ .delAttempts) =>
    ∀ c ∈ s.keys.code.get s.now, s.compared.count c.issue = 0
  | some (.verify guess (.getCode since)) =>
    ∀ c ∈ s.keys.code.get s.now,
      since = s.resets ∧ stageOf s.calls c.issue = .armed ∧
        (c.digest = env.hmacHex guess → countOf Call.matching s.calls c.issue = 0)
  | _ => True

instance (env : Env) (s : System) (i : ℕ) : Decidable (Careful env s i) := by
  unfold Careful
  split <;> infer_instance

section
variable {calls : List Call} {i : ℕ} {a c : Call}

/-! ### One call of a list goes on -/

/-- The calls that pass a test after one call went on. -/
theorem countP_set_add {p : Call → Bool} (h : calls[i]? = some a) :
    (calls.set i c).countP p + (if p a then 1 else 0) =
      calls.countP p + if p c then 1 else 0 := by
  obtain ⟨hi, ha⟩ := List.getElem?_eq_some_iff.mp h
  have hpos : (if p a then 1 else 0) ≤ calls.countP p := by
    split_ifs with hp
    · exact List.countP_pos_iff.mpr ⟨a, List.mem_of_getElem? h, hp⟩
    · exact Nat.zero_le _
  rw [List.countP_set hi, ha]
  omega

/-- As many calls pass a test when the one that went on passes it as before. -/
theorem countP_set_of_eq {p : Call → Bool} (h : calls[i]? = some a) (hp : p c = p a) :
    (calls.set i c).countP p = calls.countP p := by
  have hadd := countP_set_add (c := c) (p := p) h
  rw [hp] at hadd
  omega

/-- As many calls are at a point when the one that went on is where it was. -/
theorem countOf_set_of_eq {f : Call → Option ℕ} (h : calls[i]? = some a) (hf : f c = f a) :
    countOf f (calls.set i c) = countOf f calls :=
  funext fun x => countP_set_of_eq h (by rw [hf])

/-- One call more is at a point once a call has come there. -/
theorem countOf_set_bump {f : Call → Option ℕ} (h : calls[i]? = some a) {x : ℕ} (ha : f a = none)
    (hc : f c = some x) : countOf f (calls.set i c) = Budget.bump (countOf f calls) x := by
  funext y
  have hadd := countP_set_add (c := c) (p := fun c => f c = some y) h
  simp only [ha, hc, reduceCtorEq, decide_false, Option.some.injEq] at hadd
  by_cases hy : y = x
  · subst hy
    simpa [countOf] using hadd
  · simpa [countOf, hy, Ne.symm hy] using hadd

/-- One call less is at a point once a call has left it. -/
theorem countOf_set_drop {f : Call → Option ℕ} (h : calls[i]? = some a) {x : ℕ} (ha : f a = some x)
    (hc : f c = none) : countOf f (calls.set i c) = Budget.drop (countOf f calls) x := by
  funext y
  have hadd := countP_set_add (c := c) (p := fun c => f c = some y) h
  simp only [ha, hc, reduceCtorEq, decide_false, Option.some.injEq] at hadd
  by_cases hy : y = x
  · subst hy
    simp only [Budget.drop_self, countOf]
    simp at hadd
    omega
  · simpa [countOf, hy, Ne.symm hy] using hadd

/-- A call that is at a code is one of those that are. -/
theorem countOf_pos {f : Call → Option ℕ} (h : calls[i]? = some a) {x : ℕ} (ha : f a = some x) :
    0 < countOf f calls x :=
  List.countP_pos_iff.mpr ⟨a, List.mem_of_getElem? h, by simpa using ha⟩

/-- The stage of a code is that of its call. -/
theorem stageOf_of_get (h : calls[i]? = some a) : stageOf calls i = a.stage := by
  simp [stageOf, h]

/-- A call that goes on changes the stage of its own code alone. -/
theorem stageOf_set (h : calls[i]? = some a) :
    stageOf (calls.set i c) = Function.update (stageOf calls) i c.stage := by
  obtain ⟨hi, -⟩ := List.getElem?_eq_some_iff.mp h
  funext x
  by_cases hx : x = i
  · subst hx
    simp [stageOf, hi]
  · simp [stageOf, List.getElem?_set_ne (Ne.symm hx), hx]

/-- The stages stay when the call that went on is at the stage it was. -/
theorem stageOf_set_of_eq (h : calls[i]? = some a) (hs : c.stage = a.stage) :
    stageOf (calls.set i c) = stageOf calls := by
  rw [stageOf_set h, hs, ← stageOf_of_get h, Function.update_eq_self]

end

/-! ## A careful step is a step of the budget -/

section
variable {env : Env} {s s' : System} {i : ℕ} {code guess : Text} {k : Keys}

/-- No call holds a number from after the last deletion of the counter. -/
def SinceLe (s : System) : Prop := ∀ c ∈ s.calls, ∀ t ∈ c.since, t ≤ s.resets

/-- Once the counter is deleted every number is void. -/
theorem SinceLe.tickets_succ (h : SinceLe s) :
    s.calls.countP (Call.holdsTicket (s.resets + 1)) = 0 := by
  rw [List.countP_eq_zero]
  intro c hc hticket
  have hle : ∀ t ∈ c.since, t ≤ s.resets := h c hc
  match c with
  | .verify _ (.ttlAttempts _ since) =>
    have hlt : since ≤ s.resets := hle since rfl
    simp only [Call.holdsTicket, Bool.and_eq_true, decide_eq_true_eq] at hticket
    omega
  | .verify _ (.expireAttempts _ since) =>
    have hlt : since ≤ s.resets := hle since rfl
    simp only [Call.holdsTicket, Bool.and_eq_true, decide_eq_true_eq] at hticket
    omega
  | .verify _ (.getCode since) =>
    have hlt : since ≤ s.resets := hle since rfl
    simp only [Call.holdsTicket, decide_eq_true_eq] at hticket
    omega

/-- A request holds no number and is at no code of another. -/
theorem budget_request {pc pc' : RequestPc} (hcall : s.calls[i]? = some (.request code pc))
    (resets : ℕ) :
    System.budget
      { s with keys := k, calls := s.calls.set i (.request code pc'), resets := resets } =
      { s.budget with
        code := k.code
        attempts := k.attempts
        stage := Function.update (stageOf s.calls) i (Call.stage (.request code pc'))
        tickets := s.calls.countP (Call.holdsTicket resets) } := by
  have htickets : (s.calls.set i (.request code pc')).countP (Call.holdsTicket resets) =
      s.calls.countP (Call.holdsTicket resets) := countP_set_of_eq hcall rfl
  have hmatched : countOf Call.matching (s.calls.set i (.request code pc')) =
      countOf Call.matching s.calls := countOf_set_of_eq hcall rfl
  have hconsumed : countOf Call.consuming (s.calls.set i (.request code pc')) =
      countOf Call.consuming s.calls := countOf_set_of_eq hcall rfl
  simp only [System.budget]
  rw [stageOf_set hcall, htickets, hmatched, hconsumed]

/-- A `request_otp` that leaves the code, the counter and its stage alone. -/
theorem budget_request_stay {pc pc' : RequestPc} (hcall : s.calls[i]? = some (.request code pc))
    (hcode : k.code = s.keys.code) (hattempts : k.attempts = s.keys.attempts)
    (hstage : Call.stage (.request code pc') = Call.stage (.request code pc)) :
    Budget.Step env.otpTtlSeconds s.budget
      (System.budget { s with
        keys := k
        calls := s.calls.set i (.request code pc')
        resets := s.resets + 0 }) := by
  rw [budget_request hcall, hcode, hattempts, hstage, ← stageOf_of_get hcall,
    Function.update_eq_self]
  exact .stay

/-- Each command of `request_otp` is a step of the budget. -/
theorem budget_request_step {pc pc' : RequestPc}
    (hcall : s.calls[i]? = some (.request code pc)) (hcareful : Careful env s i)
    (hsince : SinceLe s) (hp : pc.step env s.now i code s.keys = some (pc', k)) :
    Budget.Step env.otpTtlSeconds s.budget
      (System.budget { s with
        keys := k
        calls := s.calls.set i (.request code pc')
        resets := s.resets + pc.deletes }) := by
  cases pc with
  -- The limiter's commands touch neither the code nor its attempts.
  | getBlock =>
    simp only [RequestPc.step] at hp
    split_ifs at hp <;>
    · obtain ⟨rfl, rfl⟩ := Prod.mk.inj (Option.some.inj hp)
      exact budget_request_stay hcall rfl rfl rfl
  | incrRate =>
    obtain ⟨rfl, rfl⟩ := Prod.mk.inj (Option.some.inj hp)
    refine budget_request_stay hcall rfl rfl ?_
    split_ifs <;> rfl
  | ttlRate count =>
    obtain ⟨rfl, rfl⟩ := Prod.mk.inj (Option.some.inj hp)
    refine budget_request_stay hcall rfl rfl ?_
    unfold RequestPc.afterRate
    split_ifs <;> rfl
  | expireRate count =>
    obtain ⟨rfl, rfl⟩ := Prod.mk.inj (Option.some.inj hp)
    refine budget_request_stay hcall rfl rfl ?_
    unfold RequestPc.afterRate
    split_ifs <;> rfl
  | setBlock =>
    obtain ⟨rfl, rfl⟩ := Prod.mk.inj (Option.some.inj hp)
    exact budget_request_stay hcall rfl rfl rfl
  -- The new code is stored.
  | setCode =>
    obtain ⟨rfl, rfl⟩ := Prod.mk.inj (Option.some.inj hp)
    rw [budget_request hcall]
    exact .issue i _ (stageOf_of_get hcall)
  -- The attempts start again, and with them the tickets of the calls still under way.
  | delAttempts =>
    obtain ⟨rfl, rfl⟩ := Prod.mk.inj (Option.some.inj hp)
    have hfresh : ∀ c ∈ s.keys.code.get s.now, s.compared.count c.issue = 0 := by
      simpa only [Careful, hcall] using hcareful
    rw [budget_request hcall]
    show Budget.Step _ _ { s.budget with
      attempts := none
      stage := Function.update (stageOf s.calls) i .armed
      tickets := s.calls.countP (Call.holdsTicket (s.resets + 1)) }
    rw [hsince.tickets_succ]
    exact .arm i (stageOf_of_get hcall) hfresh
  | sendOtp =>
    obtain ⟨rfl, rfl⟩ := Prod.mk.inj (Option.some.inj hp)
    exact budget_request_stay hcall rfl rfl rfl
  | returned result => cases hp

/-- A verification issues no code. -/
theorem budget_verify {pc pc' : VerifyPc} (hcall : s.calls[i]? = some (.verify guess pc))
    (compared accepted : List ℕ) :
    System.budget { s with
        keys := k
        calls := s.calls.set i (.verify guess pc')
        compared := compared
        accepted := accepted } =
      { s.budget with
        code := k.code
        attempts := k.attempts
        tickets := (s.calls.set i (.verify guess pc')).countP (Call.holdsTicket s.resets)
        matched := countOf Call.matching (s.calls.set i (.verify guess pc'))
        consumed := countOf Call.consuming (s.calls.set i (.verify guess pc'))
        compared := fun x => compared.count x
        accepted := fun x => accepted.count x } := by
  have hstage : stageOf (s.calls.set i (.verify guess pc')) = stageOf s.calls :=
    stageOf_set_of_eq hcall rfl
  simp only [System.budget]
  rw [hstage]

/-- A new entry in a list of codes. -/
theorem count_cons (xs : List ℕ) (x : ℕ) :
    (fun y => (x :: xs).count y) = Budget.bump (fun y => xs.count y) x := by
  funext y
  by_cases hy : y = x
  · subst hy
    simp
  · simp [hy, List.count_cons_of_ne (Ne.symm hy)]

/-- A call that goes on with the number it has. -/
theorem budget_verify_keep {pc : VerifyPc} (hcall : s.calls[i]? = some (.verify guess pc))
    (k : Keys) (pc' : VerifyPc)
    (hticket : Call.holdsTicket s.resets (.verify guess pc')
      = Call.holdsTicket s.resets (.verify guess pc))
    (hmatching : Call.matching (.verify guess pc') = Call.matching (.verify guess pc))
    (hconsuming : Call.consuming (.verify guess pc') = Call.consuming (.verify guess pc)) :
    System.budget { s with keys := k, calls := s.calls.set i (.verify guess pc') } =
      { s.budget with code := k.code, attempts := k.attempts } := by
  calc System.budget { s with keys := k, calls := s.calls.set i (.verify guess pc') }
      = { s.budget with
          code := k.code
          attempts := k.attempts
          tickets := (s.calls.set i (.verify guess pc')).countP (Call.holdsTicket s.resets)
          matched := countOf Call.matching (s.calls.set i (.verify guess pc'))
          consumed := countOf Call.consuming (s.calls.set i (.verify guess pc')) } :=
        budget_verify hcall s.compared s.accepted
    _ = { s.budget with code := k.code, attempts := k.attempts } := by
        rw [countP_set_of_eq hcall hticket, countOf_set_of_eq hcall hmatching,
          countOf_set_of_eq hcall hconsuming]
        rfl

/-! After its number a call goes on to the code, or has none to go on with. -/

/-- A call goes on with its number when that is at most five. -/
@[simp]
theorem holdsTicket_afterAttempts (resets attempts since : ℕ) :
    Call.holdsTicket resets (.verify guess (VerifyPc.afterAttempts attempts since)) =
      (attempts ≤ 5 && since = resets) := by
  unfold VerifyPc.afterAttempts
  split_ifs with h
  · simp [Call.holdsTicket, h]
  · simp [Call.holdsTicket, not_lt.mp h]

/-- No guess was compared yet when a number is drawn. -/
@[simp]
theorem matching_afterAttempts (attempts since : ℕ) :
    Call.matching (.verify guess (VerifyPc.afterAttempts attempts since)) = none := by
  unfold VerifyPc.afterAttempts
  split_ifs <;> rfl

/-- No code was deleted yet when a number is drawn. -/
@[simp]
theorem consuming_afterAttempts (attempts since : ℕ) :
    Call.consuming (.verify guess (VerifyPc.afterAttempts attempts since)) = none := by
  unfold VerifyPc.afterAttempts
  split_ifs <;> rfl

/-- A call draws its number. -/
theorem budget_draw {pc : VerifyPc} (hcall : s.calls[i]? = some (.verify guess .incrAttempts))
    (hholds : Call.holdsTicket s.resets (.verify guess pc) =
      decide (s.keys.attempts.count s.now + 1 ≤ 5))
    (hmatching : Call.matching (.verify guess pc) = none)
    (hconsuming : Call.consuming (.verify guess pc) = none) :
    Budget.Step env.otpTtlSeconds s.budget
      (System.budget { s with
        keys := { s.keys with attempts := s.keys.attempts.incr s.now }
        calls := s.calls.set i (.verify guess pc) }) := by
  have htickets : (s.calls.set i (.verify guess pc)).countP (Call.holdsTicket s.resets) =
      s.calls.countP (Call.holdsTicket s.resets) +
        if s.keys.attempts.count s.now + 1 ≤ 5 then 1 else 0 := by
    have hadd := countP_set_add (c := .verify guess pc) (p := Call.holdsTicket s.resets) hcall
    rw [hholds] at hadd
    simpa only [show Call.holdsTicket s.resets (.verify guess .incrAttempts) = false from rfl,
      Bool.false_eq_true, if_false, add_zero, decide_eq_true_eq] using hadd
  have hbudget : System.budget { s with
      keys := { s.keys with attempts := s.keys.attempts.incr s.now }
      calls := s.calls.set i (.verify guess pc) } = _ := budget_verify hcall s.compared s.accepted
  rw [hbudget, htickets, countOf_set_of_eq hcall hmatching, countOf_set_of_eq hcall hconsuming]
  exact .draw

/-- A call reads the code, which it is compared with if there is one. -/
theorem budget_compare {pc : VerifyPc} {since : ℕ} {c : Code}
    (hcall : s.calls[i]? = some (.verify guess (.getCode since)))
    (hget : s.keys.code.get s.now = some c) (hsince : since = s.resets)
    (harmed : stageOf s.calls c.issue = .armed)
    (hpc : pc = .returned (.ok false) ∨
      pc = .delCodeAttempts c.issue ∧ countOf Call.matching s.calls c.issue = 0) :
    Budget.Step env.otpTtlSeconds s.budget
      (System.budget { s with
        calls := s.calls.set i (.verify guess pc)
        compared := c.issue :: s.compared }) := by
  have hholds : Call.holdsTicket s.resets (.verify guess (.getCode since)) = true := by
    simpa [Call.holdsTicket] using hsince
  have hpos : 0 < s.calls.countP (Call.holdsTicket s.resets) :=
    List.countP_pos_iff.mpr ⟨_, List.mem_of_getElem? hcall, hholds⟩
  have hnone : Call.holdsTicket s.resets (.verify guess pc) = false := by
    obtain rfl | ⟨rfl, -⟩ := hpc <;> rfl
  have hconsuming : Call.consuming (.verify guess pc) = none := by
    obtain rfl | ⟨rfl, -⟩ := hpc <;> rfl
  -- the ticket of the call is used up
  have htickets : (s.calls.set i (.verify guess pc)).countP (Call.holdsTicket s.resets) =
      s.calls.countP (Call.holdsTicket s.resets) - 1 := by
    have hadd := countP_set_add (c := .verify guess pc) (p := Call.holdsTicket s.resets) hcall
    rw [hholds, hnone] at hadd
    simp only [if_true, Bool.false_eq_true, if_false] at hadd
    omega
  rw [budget_verify hcall, htickets, countOf_set_of_eq hcall hconsuming, count_cons]
  obtain rfl | ⟨rfl, hzero⟩ := hpc
  · rw [countOf_set_of_eq (c := .verify guess (.returned (.ok false))) hcall rfl]
    exact .compare c hget harmed hpos
  · rw [countOf_set_bump hcall rfl rfl]
    exact .hit c hget harmed hpos hzero

/-- One command of a `verify_otp`. -/
theorem budget_verify_step {pc pc' : VerifyPc}
    (hcall : s.calls[i]? = some (.verify guess pc)) (hcareful : Careful env s i)
    (hp : pc.step env s.now s.resets guess s.keys = some (pc', k)) :
    Budget.Step env.otpTtlSeconds s.budget
      (System.budget { s with
        keys := k
        calls := s.calls.set i (.verify guess pc')
        compared := (pc.compares s.now s.keys).toList ++ s.compared
        accepted := pc.accepts.toList ++ s.accepted }) := by
  cases pc with
  | incrAttempts =>
    obtain ⟨rfl, rfl⟩ := Prod.mk.inj (Option.some.inj hp)
    apply budget_draw hcall
    · split_ifs <;> simp only [Call.holdsTicket, decide_true, Bool.and_true]
    · split_ifs <;> rfl
    · split_ifs <;> rfl
  | ttlAttempts attempts since =>
    obtain ⟨rfl, rfl⟩ := Prod.mk.inj (Option.some.inj hp)
    have hkeep := budget_verify_keep hcall s.keys
      (if s.keys.attempts.ttl s.now < 0 then .expireAttempts attempts since
        else .afterAttempts attempts since)
      (by
        split_ifs
        · rfl
        · exact holdsTicket_afterAttempts ..)
      (by
        split_ifs
        · rfl
        · exact matching_afterAttempts ..)
      (by
        split_ifs
        · rfl
        · exact consuming_afterAttempts ..)
    exact hkeep ▸ .stay
  | expireAttempts attempts since =>
    obtain ⟨rfl, rfl⟩ := Prod.mk.inj (Option.some.inj hp)
    have hkeep := budget_verify_keep hcall
      { s.keys with attempts := s.keys.attempts.expire s.now env.otpTtlSeconds }
      (.afterAttempts attempts since)
      (holdsTicket_afterAttempts ..) (matching_afterAttempts ..) (consuming_afterAttempts ..)
    exact hkeep ▸ .expire
  | delCode =>
    obtain ⟨rfl, rfl⟩ := Prod.mk.inj (Option.some.inj hp)
    have hkeep := budget_verify_keep hcall { s.keys with code := none }
      (.returned (.error (.rateLimited env.otpTtlSeconds))) rfl rfl rfl
    exact hkeep ▸ .withdraw
  | getCode since =>
    cases hget : s.keys.code.get s.now with
    | none =>
      simp only [VerifyPc.step, hget, Option.some.injEq, Prod.mk.injEq] at hp
      obtain ⟨rfl, rfl⟩ := hp
      -- There is no code to compare with: the ticket is lost.
      have hadd := countP_set_add (c := .verify guess (.returned (.ok false)))
        (p := Call.holdsTicket s.resets) hcall
      simp only [show Call.holdsTicket s.resets (.verify guess (.returned (.ok false))) = false
        from rfl, Bool.false_eq_true, if_false, add_zero] at hadd
      rw [budget_verify hcall,
        countOf_set_of_eq (f := Call.matching) (c := .verify guess (.returned (.ok false))) hcall rfl,
        countOf_set_of_eq (f := Call.consuming) (c := .verify guess (.returned (.ok false))) hcall rfl]
      simp only [VerifyPc.compares, hget, VerifyPc.accepts, Option.map_none, Option.toList_none,
        List.nil_append]
      exact .forfeit _ (by
        show _ ≤ s.calls.countP (Call.holdsTicket s.resets)
        omega)
    | some c =>
      -- The guess is compared with the code: the ticket is spent on it.
      simp only [Careful, hcall, hget, Option.mem_def, Option.some.injEq, forall_eq'] at hcareful
      obtain ⟨hsince, harmed, hnone⟩ := hcareful
      simp only [VerifyPc.step, hget, Option.some.injEq, Prod.mk.injEq] at hp
      obtain ⟨rfl, rfl⟩ := hp
      simp only [VerifyPc.compares, hget, VerifyPc.accepts, Option.map_some, Option.toList_some,
        Option.toList_none, List.nil_append, List.singleton_append]
      apply budget_compare hcall hget hsince harmed
      split_ifs with hdigest
      · exact .inr ⟨rfl, hnone hdigest⟩
      · exact .inl rfl
  | delCodeAttempts issue =>
    obtain ⟨rfl, rfl⟩ := Prod.mk.inj (Option.some.inj hp)
    rw [budget_verify hcall, countOf_set_drop hcall rfl rfl, countOf_set_bump hcall rfl rfl,
      countP_set_of_eq (c := .verify guess (.delRate issue)) hcall rfl]
    exact .consume issue (countOf_pos hcall rfl)
  | delRate issue =>
    obtain ⟨rfl, rfl⟩ := Prod.mk.inj (Option.some.inj hp)
    rw [budget_verify hcall, countOf_set_drop (f := Call.consuming) hcall rfl rfl,
      countP_set_of_eq (c := .verify guess (.returned (.ok true))) hcall rfl,
      countOf_set_of_eq (c := .verify guess (.returned (.ok true))) hcall rfl]
    simp only [VerifyPc.accepts, Option.toList_some, List.singleton_append, count_cons]
    exact .accept issue (countOf_pos hcall rfl)
  | returned result => cases hp

/-- One command of any call. -/
theorem budget_step (hsince : SinceLe s) (hcareful : Careful env s i)
    (hstep : s.step env i = some s') : Budget.Step env.otpTtlSeconds s.budget s'.budget := by
  unfold System.step at hstep
  split at hstep
  · next code pc hcall =>
    obtain ⟨⟨pc', k⟩, hp, rfl⟩ := Option.map_eq_some_iff.mp hstep
    exact budget_request_step hcall hcareful hsince hp
  · next guess pc hcall =>
    obtain ⟨⟨pc', k⟩, hp, rfl⟩ := Option.map_eq_some_iff.mp hstep
    exact budget_verify_step hcall hcareful hp
  · cases hstep

/-- A number is drawn at the deletions there are. -/
theorem since_verify_step {pc pc' : VerifyPc}
    (hp : pc.step env s.now s.resets guess s.keys = some (pc', k)) {t : ℕ}
    (ht : t ∈ Call.since (.verify guess pc')) :
    t = s.resets ∨ t ∈ Call.since (.verify guess pc) := by
  -- Past the limit a call returns and keeps no mark.
  have hafter : ∀ {attempts since : ℕ},
      t ∈ Call.since (.verify guess (VerifyPc.afterAttempts attempts since)) → t = since := by
    intro attempts since ht
    unfold VerifyPc.afterAttempts at ht
    split_ifs at ht
    · exact nomatch ht
    · exact (Option.some.inj ht).symm
  cases pc with
  -- The increment is where a call takes the mark of the current window; later commands keep it.
  | incrAttempts =>
    obtain ⟨rfl, rfl⟩ := Prod.mk.inj (Option.some.inj hp)
    left
    split_ifs at ht <;> exact (Option.some.inj ht).symm
  | ttlAttempts attempts since =>
    obtain ⟨rfl, rfl⟩ := Prod.mk.inj (Option.some.inj hp)
    right
    split_ifs at ht
    · exact ht
    · exact congrArg some (hafter ht).symm
  | expireAttempts attempts since =>
    obtain ⟨rfl, rfl⟩ := Prod.mk.inj (Option.some.inj hp)
    right
    exact congrArg some (hafter ht).symm
  | delCode =>
    obtain ⟨rfl, rfl⟩ := Prod.mk.inj (Option.some.inj hp)
    exact nomatch ht
  | getCode since =>
    simp only [VerifyPc.step] at hp
    split at hp <;> obtain ⟨rfl, rfl⟩ := Prod.mk.inj (Option.some.inj hp)
    · exact nomatch ht
    · split_ifs at ht <;> exact nomatch ht
  | delCodeAttempts issue =>
    obtain ⟨rfl, rfl⟩ := Prod.mk.inj (Option.some.inj hp)
    exact nomatch ht
  | delRate issue =>
    obtain ⟨rfl, rfl⟩ := Prod.mk.inj (Option.some.inj hp)
    exact nomatch ht
  | returned result => cases hp

/-- No step lets a call hold a number from after the last deletion. -/
theorem SinceLe.step (h : SinceLe s) (hstep : s.step env i = some s') : SinceLe s' := by
  unfold System.step at hstep
  split at hstep
  · next code pc hcall =>
    obtain ⟨⟨pc', k⟩, -, rfl⟩ := Option.map_eq_some_iff.mp hstep
    intro c hc t ht
    obtain hc | rfl := List.mem_or_eq_of_mem_set hc
    · exact (h c hc t ht).trans (Nat.le_add_right ..)
    · exact nomatch ht
  · next guess pc hcall =>
    obtain ⟨⟨pc', k⟩, hp, rfl⟩ := Option.map_eq_some_iff.mp hstep
    intro c hc t ht
    obtain hc | rfl := List.mem_or_eq_of_mem_set hc
    · exact h c hc t ht
    · obtain rfl | ht := since_verify_step hp ht
      · exact le_rfl
      · exact h _ (List.mem_of_getElem? hcall) t ht
  · cases hstep

/-- A call that begins issues no code and holds no number. -/
theorem budget_start {c : Call} (hstage : c.stage = .unissued)
    (hticket : c.holdsTicket s.resets = false) (hmatching : c.matching = none)
    (hconsuming : c.consuming = none) : (s.start c).budget = s.budget := by
  have hstages : stageOf (s.calls ++ [c]) = stageOf s.calls := by
    funext x
    unfold stageOf
    -- The new call has the next number, and it has issued nothing.
    obtain hx | hx | hx := lt_trichotomy x s.calls.length
    · rw [List.getElem?_append_left hx]
    · simp [hx, hstage]
    · simp [List.getElem?_append_right hx.le, hx.le, show x - s.calls.length ≠ 0 by omega]
  have htickets : (s.calls ++ [c]).countP (Call.holdsTicket s.resets) =
      s.calls.countP (Call.holdsTicket s.resets) := by
    simp [hticket]
  have hmatched : countOf Call.matching (s.calls ++ [c]) = countOf Call.matching s.calls := by
    funext x
    simp [countOf, hmatching]
  have hconsumed : countOf Call.consuming (s.calls ++ [c]) = countOf Call.consuming s.calls := by
    funext x
    simp [countOf, hconsuming]
  simp only [System.budget, System.start]
  rw [hstages, htickets, hmatched, hconsumed]

/-- A call that begins holds no number. -/
theorem SinceLe.start (h : SinceLe s) {c : Call} (hc : c.since = none) : SinceLe (s.start c) := by
  intro c' hc' t ht
  obtain hc' | hc' := List.mem_append.mp hc'
  · exact h c' hc' t ht
  · obtain rfl := List.mem_singleton.mp hc'
    rw [hc] at ht
    exact nomatch ht

end

/-- Before the first call nothing is on any account. -/
theorem Budget.Inv.initial (ttl : ℕ) (now : ℤ) (attempts rate : Cell ℕ) (block : Cell Unit) :
    Budget.Inv ttl (System.initial now attempts rate block).budget where
  unissued _ _ := ⟨rfl, rfl⟩
  compared_le _ := Nat.zero_le 5
  claimed_le _ := Nat.zero_le 1
  live := nofun

/-- A run of careful steps keeps the budget. -/
theorem System.Run.inv {env : Env} {now : ℤ} {attempts rate : Cell ℕ} {block : Cell Unit}
    {s : System} (h : System.Run env (Careful env) (.initial now attempts rate block) s) :
    SinceLe s ∧ Budget.Inv env.otpTtlSeconds s.budget := by
  induction h with
  | init => exact ⟨nofun, .initial ..⟩
  | request code _ ih =>
    refine ⟨ih.1.start rfl, ?_⟩
    rw [budget_start rfl rfl rfl rfl]
    exact ih.2
  | verify guess _ ih =>
    refine ⟨ih.1.start rfl, ?_⟩
    rw [budget_start rfl rfl rfl rfl]
    exact ih.2
  | tick seconds _ ih => exact ⟨ih.1, ih.2.tick seconds⟩
  | step i _ hcareful hstep ih =>
    exact ⟨ih.1.step hstep, ih.2.step (budget_step ih.1 hcareful hstep)⟩

/-- In every run whose steps are careful, every code is compared with at most five guesses and
accepted by at most one call. -/
theorem issued_code_spent_once {env : Env} {now : ℤ} {attempts rate : Cell ℕ} {block : Cell Unit}
    {s : System} (h : System.Run env (Careful env) (.initial now attempts rate block) s) (x : ℕ) :
    s.compared.count x ≤ 5 ∧ s.accepted.count x ≤ 1 := by
  obtain ⟨-, hinv⟩ := h.inv
  have hclaimed := hinv.claimed_le x
  refine ⟨hinv.compared_le x, ?_⟩
  show s.budget.accepted x ≤ 1
  omega

/-! ## Schedules -/

namespace Sample

/-- A service whose digest is the code itself. -/
def env : Env where
  otpTtlSeconds := 300
  otpMaxPerWindow := 5
  otpWindowSeconds := 900
  otpBlockSeconds := 3600
  development := false
  hmacHex code := code

/-- A phone that nobody has asked a code for. -/
def before : System := .initial 0 none none none

def right : Text := "4711".toList

def wrong : Text := "0000".toList

/-- The first command of every `verify_otp` of a guess up to its `GET`, by the call `i`. -/
def guessed (guess : Text) (i : ℕ) : List System.Event :=
  [.verify guess, .step i, .step i, .step i]

/-- The commands of a `request_otp` up to its `SET` of the code. -/
def requested : List System.Event := [.request right, .step 0, .step 0, .step 0, .step 0]

/-- A code that is requested, guessed wrong and then right. -/
def one : List System.Event :=
  requested ++ [.step 0, .step 0] ++ guessed wrong 1 ++ guessed right 2 ++ [.step 2, .step 2]

/-- Two calls read the code before either deletes it. -/
def twice : List System.Event :=
  requested ++ [.step 0, .step 0] ++ guessed right 1 ++ guessed right 2 ++
    [.step 1, .step 1, .step 2, .step 2]

/-- A guess is compared with the new code before its request deletes the counter. -/
def sixth : List System.Event :=
  requested ++ guessed wrong 1 ++ [.step 0] ++ guessed wrong 2 ++ guessed wrong 3 ++
    guessed wrong 4 ++ guessed wrong 5 ++ guessed wrong 6

end Sample

open Sample in
/-- A code that is guessed wrong once and then accepted. -/
theorem issued_code_spent_once_right :
    ∃ s, System.Run env (Careful env) before s ∧ s.compared = [0, 0] ∧ s.accepted = [0] ∧
      s.compared.count 0 ≤ 5 ∧ s.accepted.count 0 ≤ 1 := by
  have hplayed : ∃ s, System.play env (Careful env) one before = some s ∧
      s.compared = [0, 0] ∧ s.accepted = [0] := ⟨_, rfl, rfl, rfl⟩
  obtain ⟨s, hplay, hcompared, haccepted⟩ := hplayed
  have hrun : System.Run env (Careful env) before s := .of_play .init hplay
  exact ⟨s, hrun, hcompared, haccepted, issued_code_spent_once hrun 0⟩

open Sample in
/-- When any command may be next, two calls accept one code, and six guesses are compared with one. -/
theorem code_accepted_twice :
    (∃ s, System.Run env (fun _ _ => True) before s ∧ ¬s.accepted.count 0 ≤ 1) ∧
      ∃ s, System.Run env (fun _ _ => True) before s ∧ ¬s.compared.count 0 ≤ 5 := by
  have htwice : ∃ s, System.play env (fun _ _ => True) twice before = some s ∧
      s.accepted = [0, 0] := ⟨_, rfl, rfl⟩
  have hsixth : ∃ s, System.play env (fun _ _ => True) sixth before = some s ∧
      s.compared = List.replicate 6 0 := ⟨_, rfl, rfl⟩
  constructor
  · obtain ⟨s, hplay, haccepted⟩ := htwice
    refine ⟨s, .of_play .init hplay, ?_⟩
    rw [haccepted]
    decide
  · obtain ⟨s, hplay, hcompared⟩ := hsixth
    refine ⟨s, .of_play .init hplay, ?_⟩
    rw [hcompared]
    decide

end Giftly.Otp
