import Giftly.Auth.Otp

/-!
# The budget of a code

What the keys of a phone are for. A code is issued, and armed once the request that issued it has
cleared the attempts counter. A guess is paid for with a ticket, which a call draws from the counter
and which is void once the counter is cleared. A code is compared with a guess against a ticket, a
guess that fits matches the code, and the call that then deletes it has consumed it and accepts it.

`Step` leaves the calls and their commands out. `Inv` is kept by every step, and with it a code is
compared at most five times and accepted at most once.
-/

namespace Giftly.Otp

open Store (Cell Entry)

/-- How far the request has come that issues a code. -/
inductive Stage
  | unissued
  | issued
  | armed
  deriving DecidableEq

/-- The code and the counter of a phone, and what has become of every code. -/
structure Budget where
  now : ℤ
  code : Cell Code
  attempts : Cell ℕ
  stage : ℕ → Stage
  /-- The numbers drawn from the counter that may still be used. -/
  tickets : ℕ
  /-- The calls whose guess fitted and that have not deleted the code yet. -/
  matched : ℕ → ℕ
  /-- The calls that have deleted the code and not returned yet. -/
  consumed : ℕ → ℕ
  compared : ℕ → ℕ
  accepted : ℕ → ℕ

namespace Budget

/-- One more at an index. -/
def bump (f : ℕ → ℕ) (x : ℕ) : ℕ → ℕ := Function.update f x (f x + 1)

/-- One less at an index. -/
def drop (f : ℕ → ℕ) (x : ℕ) : ℕ → ℕ := Function.update f x (f x - 1)

/-- One more at the index itself. -/
@[simp]
theorem bump_self (f : ℕ → ℕ) (x : ℕ) : bump f x x = f x + 1 := by simp [bump]

/-- One less at the index itself. -/
@[simp]
theorem drop_self (f : ℕ → ℕ) (x : ℕ) : drop f x x = f x - 1 := by simp [drop]

/-- Other indices keep their numbers. -/
@[simp]
theorem bump_of_ne (f : ℕ → ℕ) {x y : ℕ} (h : y ≠ x) : bump f x y = f y := by simp [bump, h]

/-- Other indices keep their numbers. -/
@[simp]
theorem drop_of_ne (f : ℕ → ℕ) {x y : ℕ} (h : y ≠ x) : drop f x y = f y := by simp [drop, h]

/-- What may happen, where a counter and a code that is set live for `ttl` seconds. -/
inductive Step (ttl : ℕ) (b : Budget) : Budget → Prop
  | stay : Step ttl b b
  | tick (seconds : ℕ) : Step ttl b { b with now := b.now + seconds }
  /-- A number is drawn; past the fifth it is of no use. -/
  | draw : Step ttl b
      { b with
        attempts := b.attempts.incr b.now
        tickets := b.tickets + if b.attempts.count b.now + 1 ≤ 5 then 1 else 0 }
  | expire : Step ttl b { b with attempts := b.attempts.expire b.now ttl }
  | withdraw : Step ttl b { b with code := none }
  | forfeit (tickets : ℕ) : tickets ≤ b.tickets → Step ttl b { b with tickets := tickets }
  | compare (c : Code) : b.code.get b.now = some c → b.stage c.issue = .armed → 0 < b.tickets →
      Step ttl b { b with tickets := b.tickets - 1, compared := bump b.compared c.issue }
  /-- The guess fits, and no other call is about to delete the code for the same reason. -/
  | hit (c : Code) : b.code.get b.now = some c → b.stage c.issue = .armed → 0 < b.tickets →
      b.matched c.issue = 0 →
      Step ttl b
        { b with
          tickets := b.tickets - 1
          compared := bump b.compared c.issue
          matched := bump b.matched c.issue }
  | consume (x : ℕ) : 0 < b.matched x →
      Step ttl b
        { b with
          code := none
          attempts := none
          matched := drop b.matched x
          consumed := bump b.consumed x }
  | accept (x : ℕ) : 0 < b.consumed x →
      Step ttl b { b with consumed := drop b.consumed x, accepted := bump b.accepted x }
  | issue (x : ℕ) (digest : Text) : b.stage x = .unissued →
      Step ttl b
        { b with
          code := Cell.set ⟨digest, x⟩ b.now ttl
          stage := Function.update b.stage x .issued }
  /-- The counter is cleared, and no guess has been compared with the code that is stored. -/
  | arm (x : ℕ) : b.stage x = .issued →
      (∀ c ∈ b.code.get b.now, b.compared c.issue = 0) →
      Step ttl b
        { b with
          attempts := none
          tickets := 0
          stage := Function.update b.stage x .armed }

variable {ttl : ℕ} {b b' : Budget} {e : Entry Code}

/-- What holds of the code that is stored and not expired. -/
structure Live (ttl : ℕ) (b : Budget) (e : Entry Code) : Prop where
  deadline : ∃ d, e.deadline = some d ∧ d ≤ b.now + ttl
  issued : b.stage e.value.issue ≠ .unissued
  unclaimed : b.consumed e.value.issue + b.accepted e.value.issue = 0
  fresh : b.stage e.value.issue = .issued → b.compared e.value.issue = 0
  /-- The counter of an armed code lasts as long as the code. -/
  outlives : b.stage e.value.issue = .armed → ∀ d ∈ e.deadline, b.attempts.Outlives d
  /-- Every comparison, made or paid for, is on the counter. -/
  within : b.stage e.value.issue = .armed →
    b.compared e.value.issue + b.tickets ≤ min 5 b.attempts.stored

/-- The invariant. -/
structure Inv (ttl : ℕ) (b : Budget) : Prop where
  unissued : ∀ x, b.stage x = .unissued →
    b.compared x = 0 ∧ b.matched x + b.consumed x + b.accepted x = 0
  compared_le : ∀ x, b.compared x ≤ 5
  claimed_le : ∀ x, b.matched x + b.consumed x + b.accepted x ≤ 1
  live : ∀ e, b.code = some e → Cell.Alive e b.now → Live ttl b e

/-- The code that a `GET` returns is live. -/
theorem Inv.of_get (h : Inv ttl b) {c : Code} (hc : b.code.get b.now = some c) :
    ∃ e, b.code = some e ∧ e.value = c ∧ Cell.Alive e b.now ∧ Live ttl b e := by
  obtain ⟨e, he, ha, hv⟩ := Cell.get_eq_some.mp hc
  exact ⟨e, he, hv, ha, h.live e he ha⟩

/-- A code that is alive expires later. -/
theorem Live.lt_deadline (hl : Live ttl b e) (ha : Cell.Alive e b.now) :
    ∃ d, e.deadline = some d ∧ b.now < d ∧ d ≤ b.now + ttl := by
  obtain ⟨d, hd, hle⟩ := hl.deadline
  exact ⟨d, hd, ha d hd, hle⟩

/-- Time passes, and what is stored may only expire. -/
theorem Inv.tick (h : Inv ttl b) (seconds : ℕ) : Inv ttl { b with now := b.now + seconds } where
  unissued := h.unissued
  compared_le := h.compared_le
  claimed_le := h.claimed_le
  live e he ha := by
    have hle : b.now ≤ b.now + seconds := by omega
    have hl := h.live e he (ha.mono hle)
    obtain ⟨d, hd, hdle⟩ := hl.deadline
    exact ⟨⟨d, hd, le_trans hdle (by show b.now + ttl ≤ b.now + seconds + ttl; omega)⟩,
      hl.issued, hl.unclaimed, hl.fresh, hl.outlives, hl.within⟩

/-- While an armed code is live no number is drawn twice. -/
theorem Inv.draw (h : Inv ttl b) :
    Inv ttl
      { b with
        attempts := b.attempts.incr b.now
        tickets := b.tickets + if b.attempts.count b.now + 1 ≤ 5 then 1 else 0 } where
  unissued := h.unissued
  compared_le := h.compared_le
  claimed_le := h.claimed_le
  live e he ha := by
    have hl := h.live e he ha
    refine ⟨hl.deadline, hl.issued, hl.unclaimed, hl.fresh, ?_, ?_⟩
    · intro harmed d hd
      exact (hl.outlives harmed d hd).incr
    · intro harmed
      obtain ⟨d, hd, hnow, -⟩ := hl.lt_deadline ha
      have hcount := (hl.outlives harmed d hd).count_eq hnow
      have hwithin := hl.within harmed
      show b.compared e.value.issue + (b.tickets + if b.attempts.count b.now + 1 ≤ 5 then 1 else 0)
        ≤ min 5 (b.attempts.incr b.now).stored
      -- The comparisons and the tickets were at most the count, and both rise by one.
      rw [Cell.stored_incr, hcount]
      split_ifs <;> omega

/-- A counter whose life is set outlives every code that was set before. -/
theorem Inv.expire (h : Inv ttl b) :
    Inv ttl { b with attempts := b.attempts.expire b.now ttl } where
  unissued := h.unissued
  compared_le := h.compared_le
  claimed_le := h.claimed_le
  live e he ha := by
    have hl := h.live e he ha
    obtain ⟨d, hd, hnow, hle⟩ := hl.lt_deadline ha
    refine ⟨hl.deadline, hl.issued, hl.unclaimed, hl.fresh, ?_, ?_⟩
    · intro _ d' hd'
      obtain rfl : d = d' := Option.some.inj (hd.symm.trans hd')
      exact Cell.Outlives.expire hle
    · intro harmed
      show _ ≤ min 5 (b.attempts.expire b.now ttl).stored
      rw [Cell.stored_expire (hl.outlives harmed d hd) hnow]
      exact hl.within harmed

/-- The code is deleted. -/
theorem Inv.withdraw (h : Inv ttl b) : Inv ttl { b with code := none } where
  unissued := h.unissued
  compared_le := h.compared_le
  claimed_le := h.claimed_le
  live := nofun

/-- Numbers that are not used are given up. -/
theorem Inv.forfeit (h : Inv ttl b) {tickets : ℕ} (hle : tickets ≤ b.tickets) :
    Inv ttl { b with tickets := tickets } where
  unissued := h.unissued
  compared_le := h.compared_le
  claimed_le := h.claimed_le
  live e he ha := by
    have hl := h.live e he ha
    refine ⟨hl.deadline, hl.issued, hl.unclaimed, hl.fresh, hl.outlives, ?_⟩
    intro harmed
    have hwithin := hl.within harmed
    show b.compared e.value.issue + tickets ≤ min 5 b.attempts.stored
    omega

/-- A ticket pays for the comparison. -/
theorem Inv.compare (h : Inv ttl b) {c : Code} (hget : b.code.get b.now = some c)
    (harmed : b.stage c.issue = .armed) (hpos : 0 < b.tickets) :
    Inv ttl { b with tickets := b.tickets - 1, compared := bump b.compared c.issue } := by
  obtain ⟨e, he, rfl, ha, hl⟩ := h.of_get hget
  have hwithin := hl.within harmed
  constructor
  · -- Only the live code gets a comparison, and it is issued already.
    intro x hx
    have hne : x ≠ e.value.issue := by
      rintro rfl
      exact hl.issued hx
    simpa only [bump_of_ne _ hne] using h.unissued x hx
  · intro x
    by_cases hx : x = e.value.issue
    · subst hx
      show bump _ _ _ ≤ 5
      rw [bump_self]
      omega
    · simpa only [bump_of_ne _ hx] using h.compared_le x
  · exact h.claimed_le
  · intro e' he' ha'
    obtain rfl : e = e' := Option.some.inj (he.symm.trans he')
    refine ⟨hl.deadline, hl.issued, hl.unclaimed, ?_, hl.outlives, ?_⟩
    · -- The code is armed, so it is not merely issued.
      intro hissued
      exact nomatch harmed.symm.trans hissued
    · intro _
      show bump _ _ _ + (b.tickets - 1) ≤ min 5 b.attempts.stored
      rw [bump_self]
      omega

/-- A code that is stored has been claimed by nobody but the calls that are about to delete it. -/
theorem Inv.hit (h : Inv ttl b) {c : Code} (hget : b.code.get b.now = some c)
    (hnone : b.matched c.issue = 0) : Inv ttl { b with matched := bump b.matched c.issue } := by
  obtain ⟨e, he, rfl, ha, hl⟩ := h.of_get hget
  have hunclaimed := hl.unclaimed
  constructor
  · intro x hx
    have hne : x ≠ e.value.issue := by
      rintro rfl
      exact hl.issued hx
    simpa only [bump_of_ne _ hne] using h.unissued x hx
  · exact h.compared_le
  · intro x
    -- Only the claims on the stored code change, from none to one.
    by_cases hx : x = e.value.issue
    · subst hx
      show bump _ _ _ + b.consumed _ + b.accepted _ ≤ 1
      rw [bump_self]
      omega
    · simpa only [bump_of_ne _ hx] using h.claimed_le x
  · intro e' he' ha'
    have hl' := h.live e' he' ha'
    exact ⟨hl'.deadline, hl'.issued, hl'.unclaimed, hl'.fresh, hl'.outlives, hl'.within⟩

/-- Handing a claim on keeps the number of claims. -/
theorem drop_add_bump {f g : ℕ → ℕ} {x : ℕ} (h : 0 < f x) (y : ℕ) :
    drop f x y + bump g x y = f y + g y := by
  by_cases hy : y = x
  · subst hy
    rw [drop_self, bump_self]
    omega
  · rw [drop_of_ne _ hy, bump_of_ne _ hy]

/-- A call whose guess fitted deletes the code, so no other one will fit. -/
theorem Inv.consume (h : Inv ttl b) {x : ℕ} (hx : 0 < b.matched x) :
    Inv ttl
      { b with
        code := none
        attempts := none
        matched := drop b.matched x
        consumed := bump b.consumed x } where
  unissued y hy := by
    refine ⟨(h.unissued y hy).1, ?_⟩
    show drop b.matched x y + bump b.consumed x y + b.accepted y = 0
    rw [drop_add_bump hx]
    exact (h.unissued y hy).2
  compared_le := h.compared_le
  claimed_le y := by
    show drop b.matched x y + bump b.consumed x y + b.accepted y ≤ 1
    rw [drop_add_bump hx]
    exact h.claimed_le y
  live := nofun

/-- A call that has deleted its code accepts it. -/
theorem Inv.accept (h : Inv ttl b) {x : ℕ} (hx : 0 < b.consumed x) :
    Inv ttl { b with consumed := drop b.consumed x, accepted := bump b.accepted x } where
  unissued y hy := by
    refine ⟨(h.unissued y hy).1, ?_⟩
    show b.matched y + drop b.consumed x y + bump b.accepted x y = 0
    rw [add_assoc, drop_add_bump hx, ← add_assoc]
    exact (h.unissued y hy).2
  compared_le := h.compared_le
  claimed_le y := by
    show b.matched y + drop b.consumed x y + bump b.accepted x y ≤ 1
    rw [add_assoc, drop_add_bump hx, ← add_assoc]
    exact h.claimed_le y
  live e he ha := by
    have hl := h.live e he ha
    refine ⟨hl.deadline, hl.issued, ?_, hl.fresh, hl.outlives, hl.within⟩
    show drop b.consumed x _ + bump b.accepted x _ = 0
    rw [drop_add_bump hx]
    exact hl.unclaimed

/-- A new code starts with nothing on its account. -/
theorem Inv.issue (h : Inv ttl b) {x : ℕ} (digest : Text) (hx : b.stage x = .unissued) :
    Inv ttl
      { b with
        code := Cell.set ⟨digest, x⟩ b.now ttl
        stage := Function.update b.stage x .issued } := by
  constructor
  · intro y hy
    by_cases hyx : y = x
    · subst hyx
      exact h.unissued y hx
    · exact h.unissued y ((Function.update_of_ne hyx ..).symm.trans hy)
  · exact h.compared_le
  · exact h.claimed_le
  · intro e he ha
    obtain rfl := Option.some.inj he
    -- The key now holds the new code, of which nothing was known.
    obtain ⟨hcompared, hclaimed⟩ := h.unissued x hx
    have hstage : Function.update b.stage x .issued x = .issued := Function.update_self ..
    refine ⟨⟨_, rfl, le_rfl⟩, ?_, ?_, ?_, ?_, ?_⟩
    · show Function.update b.stage x .issued x ≠ _
      rw [hstage]
      nofun
    · show b.consumed x + b.accepted x = 0
      omega
    · intro _
      exact hcompared
    · intro harmed
      exact nomatch hstage.symm.trans harmed
    · intro harmed
      exact nomatch hstage.symm.trans harmed

/-- A code that was not compared with a guess begins with a new counter. -/
theorem Inv.arm (h : Inv ttl b) {x : ℕ} (hx : b.stage x = .issued)
    (hfresh : ∀ c ∈ b.code.get b.now, b.compared c.issue = 0) :
    Inv ttl
      { b with
        attempts := none
        tickets := 0
        stage := Function.update b.stage x .armed } := by
  constructor
  · -- The stage of every other request is as it was.
    intro y hy
    by_cases hyx : y = x
    · subst hyx
      exact nomatch (Function.update_self y Stage.armed b.stage).symm.trans hy
    · exact h.unissued y ((Function.update_of_ne hyx ..).symm.trans hy)
  · exact h.compared_le
  · exact h.claimed_le
  · intro e he ha
    have hl := h.live e he ha
    -- No comparison was made with the live code yet, so the new window starts from none.
    have hzero : b.compared e.value.issue = 0 :=
      hfresh e.value (Cell.get_eq_some.mpr ⟨e, he, ha, rfl⟩)
    refine ⟨hl.deadline, ?_, hl.unclaimed, fun _ => hzero, fun _ _ _ => Cell.Outlives.none, ?_⟩
    · -- The live code was issued, and arming a request takes no code back.
      by_cases hex : e.value.issue = x
      · rw [hex]
        show Function.update b.stage x .armed x ≠ _
        rw [Function.update_self]
        nofun
      · show Function.update b.stage x .armed _ ≠ _
        rw [Function.update_of_ne hex]
        exact hl.issued
    · intro _
      show b.compared e.value.issue + 0 ≤ _
      rw [hzero]
      exact Nat.zero_le _

/-- Every step keeps the invariant. -/
theorem Inv.step (h : Inv ttl b) (hs : Step ttl b b') : Inv ttl b' := by
  cases hs with
  | stay => exact h
  | tick seconds => exact h.tick seconds
  | draw => exact h.draw
  | expire => exact h.expire
  | withdraw => exact h.withdraw
  | forfeit tickets hle => exact h.forfeit hle
  | compare c hget harmed hpos => exact h.compare hget harmed hpos
  | hit c hget harmed hpos hnone => exact (h.hit hget hnone).compare hget harmed hpos
  | consume x hx => exact h.consume hx
  | accept x hx => exact h.accept hx
  | issue x digest hx => exact h.issue digest hx
  | arm x hx hfresh => exact h.arm hx hfresh

end Budget

end Giftly.Otp
