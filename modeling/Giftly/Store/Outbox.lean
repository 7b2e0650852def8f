import Giftly.Store.Throughout

/-!
# Transactions that send

A transaction may also do something outside of the store: send a message, which is gone whether or not
the transaction commits. Here the session memory has an outbox of what its session has sent, and
`Mailed` is a run with two logs: every message with the committed state in which it was sent, and the
messages whose transaction was rolled back after it.

`sent_le` bounds the messages of a kind by those of rolled back transactions, those of transactions
still running, and a measure of the committed state that every commit raises by what its transaction
has sent.
-/

namespace Giftly.Store

variable {D L E M V R α β : Type}

namespace Prog

/-- Send a message. -/
def send (x : V) : Prog D L E (M × List V) Unit :=
  .orm (fun m => (m.1, x :: m.2)) fun _ => .ret ()

/-- A program that sends nothing, in a session with an outbox. -/
def silent : Prog D L E M α → Prog D L E (M × List V) α
  | ret a => ret a
  | raise e => raise e
  | orm f k => orm (fun m => (f m.1, m.2)) fun m => (k m.1).silent
  | select k => select fun d => (k d).silent
  | lock t k => lock t fun d => (k d).silent
  | write ls p c next failed => write ls p c next.silent fun e => (failed e).silent

/-- A change of the session memory that leaves the outbox alone. -/
def Quiet (f : M × List V → M × List V) : Prop := ∀ m, (f m).2 = m.2

/-- A change of the session memory that at most sends. -/
def Sends (f : M × List V → M × List V) : Prop := ∀ m, ∃ xs, (f m).2 = xs ++ m.2

/-- A change that leaves the outbox alone sends at most nothing. -/
theorem Quiet.sends {f : M × List V → M × List V} (h : Quiet f) : Sends f := fun m => ⟨[], h m⟩

/-- The flushes of a silent program are those of the program. -/
theorem Writes.silent {F : List L → (D → D) → Prop} {G : (M → M) → Prop} {p : Prog D L E M α}
    (hp : p.Writes F G) : (p.silent : Prog D L E (M × List V) α).Writes F Quiet := by
  induction p with
  | ret a => trivial
  | raise e => trivial
  | orm f k ih => exact ⟨fun _ => rfl, fun m => ih m.1 (hp.2 m.1)⟩
  | select k ih => exact fun d => ih d (hp d)
  | lock t k ih => exact fun d => ih d (hp d)
  | write ls p c next failed ihn ihf => exact ⟨hp.1, ihn hp.2.1, fun e => ihf e (hp.2.2 e)⟩

/-- A program whose changes of the session memory are of some kind, whatever it writes. -/
theorem Writes.memory {F : List L → (D → D) → Prop} {G G' : (M → M) → Prop} {p : Prog D L E M α}
    (hp : p.Writes F G) (h : ∀ f, G f → G' f) : p.Writes (fun _ _ => True) G' := by
  induction p with
  | ret a => trivial
  | raise e => trivial
  | orm f k ih => exact ⟨h f hp.1, fun m => ih m (hp.2 m)⟩
  | select k ih => exact fun d => ih d (hp d)
  | lock t k ih => exact fun d => ih d (hp d)
  | write ls p c next failed ihn ihf => exact ⟨trivial, ihn hp.2.1, fun e => ihf e (hp.2.2 e)⟩

end Prog

/-! ## Runs with logs -/

/-- What a transaction sends in its next step. -/
def Session.sends (t : Session D L E (M × List V) R) : List V :=
  match t.prog with
  | .orm f _ => (f t.mem).2.take ((f t.mem).2.length - t.mem.2.length)
  | _ => []

/-- The messages of a transaction that its next step rolls back. -/
def Session.loses (t : Session D L E (M × List V) R) : List V :=
  match t.prog with
  | .raise _ => t.mem.2
  | _ => []

/-- The messages that a running transaction has sent. -/
def Slot.outbox : Slot D L E (M × List V) R → List V
  | .running t => t.mem.2
  | _ => []

/-- A system with the logs of its run. -/
structure Mail (D L E M V R : Type) where
  sys : System D L E (M × List V) R
  /-- Every message, with the committed state in which it was sent. -/
  sent : List (V × D)
  /-- The messages of transactions that were rolled back. -/
  lost : List V

variable [DecidableEq L]

/-- The runs of transactions that send, with their logs. -/
inductive Mailed (Allowed : Prog D L E (M × List V) R → Prop) (m : M) (d : D) :
    Mail D L E M V R → Prop
  | init : Mailed Allowed m d ⟨⟨d, []⟩, [], []⟩
  | begin {x p} : Mailed Allowed m d x → Allowed p →
      Mailed Allowed m d { x with sys := x.sys.begin (m, []) p }
  | step {x t s'} (i : ℕ) : Mailed Allowed m d x → x.sys.slots[i]? = some (.running t) →
      x.sys.step i = some s' →
      Mailed Allowed m d
        ⟨s', t.sends.map (fun v => (v, x.sys.db)) ++ x.sent, t.loses ++ x.lost⟩
  | abort {x t} (i : ℕ) : Mailed Allowed m d x → x.sys.slots[i]? = some (.running t) →
      Mailed Allowed m d
        { x with sys := x.sys.put i (.rolledBack none), lost := t.mem.2 ++ x.lost }

variable {Allowed : Prog D L E (M × List V) R → Prop} {m : M} {d : D} {x : Mail D L E M V R}

/-- Without the logs it is a run. -/
theorem Mailed.run (h : Mailed Allowed m d x) :
    System.Run Allowed (System.always D L (M × List V)) (m, []) d x.sys := by
  induction h with
  | init => exact .init
  | begin _ hp ih => exact ih.begin hp
  | step i _ _ hs ih => exact ih.step i (fun _ _ _ _ => trivial) hs
  | abort i _ ht ih => exact ih.abort i ht

/-- An event of a schedule. -/
inductive MailEvent (D L E M V R : Type)
  | start (p : Prog D L E (M × List V) R)
  | step (i : ℕ)
  /-- A process crashes. -/
  | crash (i : ℕ)

/-- One event. -/
def Mail.next (m : M) (x : Mail D L E M V R) : MailEvent D L E M V R → Option (Mail D L E M V R)
  | .start p => some { x with sys := x.sys.begin (m, []) p }
  | .step i =>
    match x.sys.slots[i]? with
    | some (.running t) => (x.sys.step i).map fun s' =>
      ⟨s', t.sends.map (fun v => (v, x.sys.db)) ++ x.sent, t.loses ++ x.lost⟩
    | _ => none
  | .crash i =>
    match x.sys.slots[i]? with
    | some (.running t) =>
      some { x with sys := x.sys.put i (.rolledBack none), lost := t.mem.2 ++ x.lost }
    | _ => none

/-- Execute a schedule. -/
def Mail.play (m : M) : List (MailEvent D L E M V R) → Mail D L E M V R → Option (Mail D L E M V R)
  | [], x => some x
  | e :: es, x => (x.next m e).bind (Mail.play m es)

/-- A schedule of allowed transactions is a run. -/
theorem Mailed.of_play {es : List (MailEvent D L E M V R)} {x' : Mail D L E M V R}
    (hx : Mailed Allowed m d x) (ha : ∀ p, MailEvent.start p ∈ es → Allowed p)
    (h : x.play m es = some x') : Mailed Allowed m d x' := by
  -- By induction on the script: each event is a step of the run.
  induction es generalizing x with
  | nil =>
    obtain rfl := Option.some.inj h
    exact hx
  | cons e es ih =>
    have hrest : ∀ p, MailEvent.start p ∈ es → Allowed p := fun p hp =>
      ha p (List.mem_cons_of_mem _ hp)
    obtain ⟨x₁, h₁, h₂⟩ := Option.bind_eq_some_iff.mp h
    refine ih ?_ hrest h₂
    cases e with
    | start p =>
      obtain rfl := Option.some.inj h₁
      exact hx.begin (ha p List.mem_cons_self)
    | step i =>
      simp only [Mail.next] at h₁
      split at h₁
      · rename_i t ht
        obtain ⟨s', hs, rfl⟩ := Option.map_eq_some_iff.mp h₁
        exact hx.step i ht hs
      · cases h₁
    | crash i =>
      simp only [Mail.next] at h₁
      split at h₁
      · rename_i t ht
        obtain rfl := Option.some.inj h₁
        exact hx.abort i ht
      · cases h₁

/-! ## One statement -/

/-- What a statement does to a system with an outbox in its sessions. -/
theorem mail_step {s s' : System D L E (M × List V) R} {i : ℕ}
    {t : Session D L E (M × List V) R} (ht : s.slots[i]? = some (.running t))
    (hs : s.step i = some s') :
    (∃ r, t.prog = .ret r ∧ s'.db = t.view s.db ∧ s'.slots = s.slots.set i (.committed r)) ∨
      s'.db = s.db ∧ ∃ y, s'.slots = s.slots.set i y ∧
        ((∃ e, t.prog = .raise e ∧ y = .rolledBack (some e)) ∨
          (∃ f k, t.prog = .orm f k ∧
            y = .running { t with prog := k (f t.mem), mem := f t.mem }) ∨
          t.sends = [] ∧ t.loses = [] ∧ ∃ u, y = .running u ∧ u.mem = t.mem) := by
  obtain ⟨u, hu, ⟨r, hp, rfl⟩ | ⟨e, hp, rfl⟩ | ⟨w, hw, rfl⟩⟩ := System.step_cases hs
  all_goals
    obtain rfl : t = u := by simpa [ht] using hu
  · exact .inl ⟨r, hp, rfl, rfl⟩
  · exact .inr ⟨rfl, _, rfl, .inl ⟨e, hp, rfl⟩⟩
  · -- Only a command on the session can write its outbox.
    refine .inr ⟨rfl, _, rfl, .inr ?_⟩
    cases hw with
    | orm hp => exact .inl ⟨_, _, hp, rfl⟩
    | select hp => exact .inr ⟨by simp [Session.sends, hp], by simp [Session.loses, hp], _, rfl, rfl⟩
    | missing hp _ =>
      exact .inr ⟨by simp [Session.sends, hp], by simp [Session.loses, hp], _, rfl, rfl⟩
    | locked hp _ _ =>
      exact .inr ⟨by simp [Session.sends, hp], by simp [Session.loses, hp], _, rfl, rfl⟩
    | written hp _ _ =>
      exact .inr ⟨by simp [Session.sends, hp], by simp [Session.loses, hp], _, rfl, rfl⟩
    | failed hp _ _ =>
      exact .inr ⟨by simp [Session.sends, hp], by simp [Session.loses, hp], _, rfl, rfl⟩

/-- What is left of a transaction after a statement is of the kind of what was left before. -/
theorem writes_of_step {N : Type} {F : List L → (D → D) → Prop} {G : (N → N) → Prop}
    {s s' : System D L E N R} {i : ℕ}
    (h : ∀ (j : ℕ) (t : Session D L E N R), s.slots[j]? = some (.running t) → t.prog.Writes F G)
    (hs : s.step i = some s') (j : ℕ) (t : Session D L E N R)
    (ht : s'.slots[j]? = some (.running t)) : t.prog.Writes F G := by
  obtain ⟨u, hu, ⟨r, -, rfl⟩ | ⟨e, -, rfl⟩ | ⟨w, hw, rfl⟩⟩ := System.step_cases hs
  all_goals rcases System.getElem?_set_cases ht with ⟨-, hj⟩ | ⟨-, hx⟩
  · exact h j t hj
  · cases hx
  · exact h j t hj
  · cases hx
  · exact h j t hj
  · cases hx
    exact hw.writes (h i u hu)

/-- What is left of every running transaction of a run is of the kind of the whole. -/
theorem writes_of_run {N : Type} {Kind : Prog D L E N R → Prop} {cond : N → D → L → Prop} {n : N}
    {F : List L → (D → D) → Prop} {G : (N → N) → Prop} (hA : ∀ p, Kind p → p.Writes F G)
    {s : System D L E N R} (h : System.Run Kind cond n d s) (j : ℕ) (t : Session D L E N R)
    (ht : s.slots[j]? = some (.running t)) : t.prog.Writes F G := by
  induction h generalizing j t with
  | init => simp at ht
  | begin _ hp ih =>
    rcases System.begin_cases ht with ht | rfl
    · exact ih j t ht
    · exact hA _ hp
  | step i _ _ hs ih => exact writes_of_step ih hs j t ht
  | abort i _ _ ih =>
    rcases System.getElem?_set_cases ht with ⟨-, ht⟩ | ⟨-, hx⟩
    · exact ih j t ht
    · cases hx

/-! ## Accounting -/

section Accounting

variable {q : V → Bool}

/-- The messages of a kind that running transactions have sent. -/
def System.unsettled (q : V → Bool) (s : System D L E (M × List V) R) : ℕ :=
  (s.slots.map fun y => y.outbox.countP q).sum

omit [DecidableEq L] in
/-- The sum over a list in which one entry was replaced. -/
theorem sum_map_set {γ : Type} {ys : List γ} {i : ℕ} {a : γ} (b : γ) (f : γ → ℕ)
    (h : ys[i]? = some a) : ((ys.set i b).map f).sum + f a = (ys.map f).sum + f b := by
  induction ys generalizing i with
  | nil => simp at h
  | cons y ys ih =>
    cases i with
    | zero =>
      obtain rfl : y = a := by simpa using h
      simp only [List.set_cons_zero, List.map_cons, List.sum_cons]
      omega
    | succ i =>
      have hset := ih (by simpa using h)
      simp only [List.set_cons_succ, List.map_cons, List.sum_cons]
      omega

omit [DecidableEq L] in
/-- A sum of numbers up to one of which at most one is positive. -/
theorem sum_map_le_one {γ : Type} {ys : List γ} {f : γ → ℕ} (hle : ∀ y ∈ ys, f y ≤ 1)
    (hone : ∀ (i j : ℕ) (a b : γ), ys[i]? = some a → ys[j]? = some b → 0 < f a → 0 < f b → i = j) :
    (ys.map f).sum ≤ 1 := by
  induction ys with
  | nil => simp
  | cons y ys ih =>
    -- The hypothesis of the list is one of its tail.
    have htail : ∀ (i j : ℕ) (a b : γ), ys[i]? = some a → ys[j]? = some b → 0 < f a → 0 < f b →
        i = j := by
      intro i j a b ha hb hfa hfb
      have := hone (i + 1) (j + 1) a b (by simpa using ha) (by simpa using hb) hfa hfb
      omega
    rw [List.map_cons, List.sum_cons]
    by_cases hy : 0 < f y
    · -- the head is the positive one
      have hzero : (ys.map f).sum = 0 := by
        rw [List.sum_eq_zero_iff]
        intro n hn
        obtain ⟨z, hz, rfl⟩ := List.mem_map.mp hn
        obtain ⟨j, hj⟩ := List.getElem?_of_mem hz
        by_contra hpos
        have := hone 0 (j + 1) y z rfl (by simpa using hj) hy (by omega)
        omega
      have := hle y List.mem_cons_self
      omega
    · have := ih (fun z hz => hle z (List.mem_cons_of_mem _ hz)) htail
      omega

/-- Every message of a kind was sent by a transaction that was rolled back, or is still running, or
has raised the measure when it was committed. -/
theorem sent_le {N : D → ℕ}
    (hA : ∀ p, Allowed p → p.Writes (fun _ _ => True) Prog.Sends)
    (hcommit : ∀ (x : Mail D L E M V R) (i : ℕ) (t : Session D L E (M × List V) R) (r : R),
      Mailed Allowed m d x → x.sys.slots[i]? = some (.running t) → t.prog = .ret r →
        N x.sys.db + t.mem.2.countP q ≤ N (t.view x.sys.db))
    (h : Mailed Allowed m d x) :
    N d + x.sent.countP (fun e => q e.1) ≤
      N x.sys.db + x.sys.unsettled q + x.lost.countP q := by
  induction h with
  | init => simp [System.unsettled]
  | begin _ _ ih => simpa [System.unsettled, System.begin, Slot.outbox, Session.start] using ih
  -- A step sends, loses or keeps what is in the outbox of its session; a commit answers for it by
  -- `N`.
  | @step x t s' i hx ht hs ih =>
    have hset : ∀ y : Slot D L E (M × List V) R, s'.slots = x.sys.slots.set i y →
        s'.unsettled q + t.mem.2.countP q = x.sys.unsettled q + y.outbox.countP q := by
      intro y hy
      unfold System.unsettled
      rw [hy]
      exact sum_map_set y (fun y => y.outbox.countP q) ht
    rcases mail_step ht hs with ⟨r, hr, hdb, hslots⟩ | ⟨hdb, y, hslots, hy⟩
    · have hraise := hcommit x i t r hx ht hr
      have hcount := hset _ hslots
      have hsends : t.sends = [] := by simp [Session.sends, hr]
      have hloses : t.loses = [] := by simp [Session.loses, hr]
      simp only [hsends, hloses, List.map_nil, List.nil_append, hdb, Slot.outbox,
        List.countP_nil] at hcount ⊢
      omega
    · have hcount := hset _ hslots
      rcases hy with ⟨e, he, rfl⟩ | ⟨f, k, hf, rfl⟩ | ⟨hsends, hloses, u, rfl, hmem⟩
      · have hsends : t.sends = [] := by simp [Session.sends, he]
        have hloses : t.loses = t.mem.2 := by simp [Session.loses, he]
        simp only [hsends, hloses, List.map_nil, List.nil_append, hdb, Slot.outbox,
          List.countP_nil, List.countP_append] at hcount ⊢
        omega
      · -- A command that writes an outbox only adds to it what it sends.
        have hwrites := writes_of_run hA hx.run i t ht
        rw [hf] at hwrites
        obtain ⟨xs, hxs⟩ := hwrites.1 t.mem
        have hsends : t.sends = xs := by simp [Session.sends, hf, hxs]
        have hloses : t.loses = [] := by simp [Session.loses, hf]
        have hnew : (xs.map fun v => (v, x.sys.db)).countP (fun e => q e.1) = xs.countP q := by
          rw [List.countP_map]
          rfl
        simp only [hsends, hloses, List.nil_append, hdb, Slot.outbox, hxs, List.countP_append,
          hnew] at hcount ⊢
        omega
      · simp only [hsends, hloses, List.map_nil, List.nil_append, hdb, Slot.outbox, hmem] at hcount ⊢
        omega
  -- A crash empties the outbox of its session.
  | @abort x t i hx ht ih =>
    have hcount : (x.sys.put i (.rolledBack none)).unsettled q + t.mem.2.countP q =
        x.sys.unsettled q + 0 :=
      sum_map_set (.rolledBack none) (fun y => y.outbox.countP q) ht
    simp only [System.put, List.countP_append] at hcount ⊢
    omega

end Accounting

/-- What a running transaction has in its outbox is in the log. -/
theorem outbox_sent (hA : ∀ p, Allowed p → p.Writes (fun _ _ => True) Prog.Sends)
    (h : Mailed Allowed m d x) (i : ℕ) (t : Session D L E (M × List V) R)
    (ht : x.sys.slots[i]? = some (.running t)) : ∀ v ∈ t.mem.2, ∃ e ∈ x.sent, e.1 = v := by
  induction h generalizing i t with
  | init => simp at ht
  | begin _ _ ih =>
    rcases System.begin_cases ht with ht | rfl
    · exact ih i t ht
    · exact fun v hv => absurd hv List.not_mem_nil
  | @step x u s' j hx hu hs ih =>
    -- The other sessions' outboxes are as they were, and nothing sent is taken back.
    have hold : ∀ (k : ℕ) (w : Session D L E (M × List V) R), x.sys.slots[k]? = some (.running w) →
        ∀ v ∈ w.mem.2, ∃ e ∈ u.sends.map (fun v => (v, x.sys.db)) ++ x.sent, e.1 = v := by
      intro k w hw v hv
      obtain ⟨e, he, hev⟩ := ih k w hw v hv
      exact ⟨e, List.mem_append_right _ he, hev⟩
    have hset : ∀ y : Slot D L E (M × List V) R, s'.slots = x.sys.slots.set j y →
        (∀ w, y = .running w → ∀ v ∈ w.mem.2,
          ∃ e ∈ u.sends.map (fun v => (v, x.sys.db)) ++ x.sent, e.1 = v) →
        ∀ v ∈ t.mem.2, ∃ e ∈ u.sends.map (fun v => (v, x.sys.db)) ++ x.sent, e.1 = v := by
      intro y hslots hy
      rw [hslots, List.getElem?_set] at ht
      split_ifs at ht
      · exact hy t (Option.some.inj ht)
      · exact hold i t ht
    rcases mail_step hu hs with ⟨r, -, -, hslots⟩ | ⟨-, y, hslots, hy⟩
    · exact hset _ hslots (by simp)
    · rcases hy with ⟨e, -, rfl⟩ | ⟨f, k, hf, rfl⟩ | ⟨-, -, w, rfl, hmem⟩
      · exact hset _ hslots (by simp)
      · refine hset _ hslots ?_
        rintro _ ⟨⟩ v hv
        have hwrites := writes_of_run hA hx.run j u hu
        rw [hf] at hwrites
        obtain ⟨xs, hxs⟩ := hwrites.1 u.mem
        have hsends : u.sends = xs := by simp [Session.sends, hf, hxs]
        simp only [hxs, List.mem_append] at hv
        rcases hv with hv | hv
        · refine ⟨(v, x.sys.db), List.mem_append_left _ ?_, rfl⟩
          rw [hsends]
          exact List.mem_map_of_mem hv
        · exact hold j u hu v hv
      · refine hset _ hslots ?_
        rintro _ ⟨⟩
        rw [hmem]
        exact hold j u hu
  | @abort x u j hx hu ih =>
    rcases System.getElem?_set_cases ht with ⟨-, ht⟩ | ⟨-, hx⟩
    · exact ih i t ht
    · cases hx

end Giftly.Store
