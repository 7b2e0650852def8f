import Giftly.Concurrency.LostUpdate
import Giftly.Store.Noted
import Mathlib.Data.Prod.Lex

/-!
# The wallet statement

A wallet's statement lists its ledger rows by `created_at` and `id`, the newest first, and every row
shows the balance after it. `created_at` is the start of the transaction that inserted the row, while
the balances follow the order in which the wallet was locked. The statement is a running balance in
every run in which these orders agree: every group that is committed has started, and has its ids,
after the rows that its wallets have by then (`inOrder`).
-/

namespace Giftly

open Store
open WalletRepository MoneyService

/-! ## Rows with their stamps -/

/-- The columns `created_at` and `id` of a ledger row, in the order in which they are compared. -/
abbrev Stamp := Time ×ₗ Id

/-- The database, and the stamps of the ledger's rows in the order of the rows. -/
abbrev Dated := Db × List Stamp

/-- A ledger row with its stamp. -/
abbrev Entry := Transaction × Stamp

/-- The rows of a wallet with their stamps, in the order in which they were inserted. -/
def entries (x : Dated) (walletId : Id) : List Entry :=
  (x.1.transactions.zip x.2).filter fun e => e.1.walletId = walletId

/-- `ORDER BY created_at DESC, id DESC`. -/
def newestFirst (es : List Entry) : List Entry := es.insertionSort fun a b => b.2 ≤ a.2

/-- `list_transactions`: a page of a wallet's rows, newest first. The page begins after the row
`before_id`, when there is one. -/
def WalletRepository.listTransactions (x : Dated) (walletId : Id) (limit : ℕ)
    (beforeId : Option Id) : List Entry :=
  match beforeId.bind fun id => x.2.find? fun s => (ofLex s).2 = id with
  | none => (newestFirst (entries x walletId)).take limit
  | some anchor =>
    (newestFirst ((entries x walletId).filter fun e => e.2 < anchor)).take limit

/-- A transaction that posts one group: its start, the ids that the database generates for its
rows, and the group. -/
structure Posting where
  now : Time
  ids : ℕ → Id
  legs : List Leg
  correlationId : Id

namespace Posting

/-- The stamp of the transaction's row `k`. -/
def stamp (q : Posting) (k : ℕ) : Stamp := toLex (q.now, q.ids k)

/-- The group is posted by a session whose locking reads refresh the wallets. -/
def book (q : Posting) : Tx Posting := do
  let _ ← postGroup true q.legs q.correlationId
  return q

/-- The stamps of the ledger, when the rows that have none get those of the transaction. -/
def stampRows (q : Posting) (x : Dated) : List Stamp :=
  x.2 ++ (List.range (x.1.transactions.length - x.2.length)).map q.stamp

/-- The transaction. The database fills in the stamps when the rows are inserted; nobody else sees
them before the commit. -/
def tx (q : Posting) : Prog Dated Row Err Memory Posting := q.book.noting stampRows

/-- The wallets of the group's rows, with the stamps of the rows. -/
def marks (q : Posting) : List (Id × Stamp) :=
  (walletIds q.legs).zip ((List.range q.legs.length).map q.stamp)

end Posting

/-- The transactions of a run. Every caller of `post_group` quantizes the amounts of its legs. -/
def Posts (p : Prog Dated Row Err Memory Posting) : Prop :=
  ∃ q : Posting, InCents q.legs ∧ p = q.tx

/-- When the group of a transaction is no replay, its rows come after the rows that their wallets
have in the committed state, and the rows of one wallet in the order of their legs. -/
def inOrder (q : Posting) (x : Dated) : Prop :=
  (∀ key ∈ legKeys q.legs, key ∉ ledgerKeys x.1.transactions) →
    (∀ r ∈ q.marks, ∀ e ∈ entries x r.1, e.2 < r.2) ∧
      q.marks.Pairwise fun r r' => r.1 = r'.1 → r.2 < r'.2

instance (q : Posting) (x : Dated) : Decidable (inOrder q x) := by
  unfold inOrder
  infer_instance

/-! ## Balances in the order of the ledger -/

/-- The rows of every wallet record a running balance, which ends in the balance of the wallet. -/
def Running (d : Db) : Prop :=
  ∀ id, (rowsOf id d.transactions).IsChain Transaction.Continues ∧
    ∀ w b, d.wallets.get? id = some w → lastBalance id d.transactions = some b → b = w.balance

/-- The last balance of a wallet is the one after the last of its rows. -/
theorem lastBalance_eq (id : Id) (ts : List Transaction) :
    lastBalance id ts = (rowsOf id ts).getLast?.map (·.balanceAfter) := by
  rw [lastBalance, rowsOf, List.getLast?_eq_head?_reverse, ← List.filter_reverse,
    List.head?_filter]

/-- The rows of a wallet in a ledger that was appended to. -/
theorem rowsOf_append (id : Id) (ts us : List Transaction) :
    rowsOf id (ts ++ us) = rowsOf id ts ++ rowsOf id us := List.filter_append ..

/-- The policy of a ledger with running balances. -/
def statementPolicy : Policy where
  tables := [.wallets, .transactions]
  inv := Running

/-- What the commit of a posting does to the ledger: nothing, or it appends a row for each leg of a
group none of whose keys was there. -/
def Appends (q : Posting) (d d' : Db) : Prop :=
  d'.transactions = d.transactions ∨
    (∀ key ∈ legKeys q.legs, key ∉ ledgerKeys d.transactions) ∧
      ∃ rows, List.Forall₂ (RowOf q.correlationId) q.legs rows ∧
        d'.transactions = d.transactions ++ rows

namespace StatementProof

variable {q : Posting} {m : Memory} {d d' : Db}

/-- What a posting knows before its first statement. -/
theorem framed_start : statementPolicy.Framed (.start m d) :=
  fun d => ⟨.refl _ d, fun l _ => .refl l d⟩

/-- A transaction begins with no wallet locked. -/
theorem current_start : Current statementPolicy (.start m d) :=
  fun _ h => absurd h List.not_mem_nil

variable {v₁ : TxView} {loaded assigned : Id → Option Wallet} {rows : List Transaction} {x : Db}

/-- A booked group continues the running balances. -/
theorem running_of_booked
    (h : Booking statementPolicy true q.correlationId q.legs (.start m d) v₁ loaded assigned rows x)
    (hd : statementPolicy.around.rely (booked q.legs (.start m d) v₁ loaded assigned rows x).held x
      d') : Running (d'.post (written loaded assigned) rows) := by
  intro id
  obtain ⟨hchain, hlast⟩ := hd.1 id
  have hledger : (d'.post (written loaded assigned) rows).transactions = d'.transactions ++ rows :=
    rfl
  rw [hledger, rowsOf_append]
  by_cases hid : id ∈ walletIds q.legs
  · -- A wallet of the group: the legs start from its row and leave it at their last balance.
    obtain ⟨w, hw, hrow⟩ := h.row (.inl rfl) framed_start current_start hid
    obtain ⟨hbefore, hafter⟩ := hrow d' (h.reach hd)
    obtain ⟨hnew, hhead⟩ := h.applied.running id w hw
    refine ⟨hchain.append hnew fun t ht u hu => ?_, fun w' b hw' hb => ?_⟩
    · -- The first new row adds to the balance of the wallet, which is that of the last old row.
      have hold : lastBalance id d'.transactions = some t.balanceAfter := by
        rw [lastBalance_eq, ht, Option.map_some]
      have hbalance : t.balanceAfter = w.balance := hlast w _ hbefore hold
      have hu := hhead u hu
      rw [Transaction.Continues, hbalance]
      exact hu
    · obtain rfl : creditRows rows id w = w' := Option.some.inj (hafter.symm.trans hw')
      rw [lastBalance_append] at hb
      cases hts : lastBalance id rows with
      | some b' =>
        rw [hts, Option.some_or, Option.some.injEq] at hb
        rw [← hb]
        exact h.applied.last id w b' hw hts
      | none =>
        rw [hts, Option.none_or] at hb
        have hzero : ledgerSum id rows = 0 := ledgerSum_eq_zero (lastBalance_eq_none.mp hts)
        have hbalance := hlast w b hbefore hb
        simp only [creditRows, Wallet.credit]
        omega
  · -- Another wallet has no new row, and its own is the one before.
    have hnone : rowsOf id rows = [] := by
      rw [rowsOf, List.filter_eq_nil_iff]
      intro t ht htid
      have htid : t.walletId = id := of_decide_eq_true htid
      rw [← htid, ← rows_walletId h.applied.rows] at hid
      exact hid (List.mem_map_of_mem ht)
    rw [hnone, List.append_nil, h.row_outside hid]
    refine ⟨hchain, fun w b hw hb => hlast w b hw ?_⟩
    rw [lastBalance_append, lastBalance_eq id rows, hnone] at hb
    exact hb

/-- A booked group appends its rows, and its keys were not in the ledger. -/
theorem appends_of_booked
    (h : Booking statementPolicy true q.correlationId q.legs (.start m d) v₁ loaded assigned rows x)
    (hd : statementPolicy.around.rely (booked q.legs (.start m d) v₁ loaded assigned rows x).held x
      d') : Appends q d' (d'.post (written loaded assigned) rows) := by
  refine .inr ⟨fun key hkey hmem => ?_, rows, h.applied.rows, rfl⟩
  exact h.fresh hkey ((Policy.rely_key hd (Booking.key_mem_held hkey)).mp hmem)

/-- A posting keeps the balances running, and does to the ledger what it may. -/
theorem book_ensures (hcents : InCents q.legs) :
    statementPolicy.discipline.Ensures Appends m q.book := by
  refine Policy.ensures_of_wp (.bind writesTo_postGroup fun _ => trivial) (List.Subset.refl _)
    fun d _ => ?_
  unfold Posting.book
  rw [wp_bind]
  refine wp_postGroup hcents (fun v₁ hl _ => ?_) fun v₁ loaded assigned rows x hb => ?_
  · have hid : v₁.pending = id := hl.pending
    refine ⟨Policy.safe_of_pending_id hid, fun d' _ => .inl ?_⟩
    rw [hid]
    rfl
  · exact ⟨fun d' hd' => ⟨running_of_booked hb hd', trivial, trivial, fun _ _ => trivial⟩,
      fun d' hd' => appends_of_booked hb hd'⟩

/-! ## The order of the stamps -/

variable {x y : Dated}

/-- The rows of a group and the marks of its transaction are the same wallets with the same stamps. -/
theorem marks_eq {rows : List Transaction} (h : List.Forall₂ (RowOf q.correlationId) q.legs rows) :
    q.marks = (rows.zip ((List.range q.legs.length).map q.stamp)).map fun e => (e.1.walletId, e.2) := by
  rw [Posting.marks, ← rows_walletId h, List.zip_map_left]
  rfl

/-- A commit whose rows are in order keeps the order of the stamps. -/
theorem sorted_of_commit (hlen : x.2.length = x.1.transactions.length)
    (hsorted : ∀ id, (entries x id).Pairwise fun e e' => e.2 < e'.2) (hpost : Appends q x.1 y.1)
    (hnote : y.2 = q.stampRows (y.1, x.2)) (hfit : inOrder q x) (id : Id) :
    (entries y id).Pairwise fun e e' => e.2 < e'.2 := by
  rcases hpost with hsame | ⟨hfresh, rows, hrows, happ⟩
  · -- Nothing was booked, so no stamp was added.
    have hstamps : y.2 = x.2 := by
      rw [hnote, Posting.stampRows]
      simp only [hsame, hlen, Nat.sub_self, List.range_zero, List.map_nil, List.append_nil]
    unfold entries
    rw [hsame, hstamps]
    exact hsorted id
  · obtain ⟨hafter, hlegs⟩ := hfit hfresh
    rw [marks_eq hrows] at hafter hlegs
    -- Each new row gets one stamp, in the order of the legs.
    have hstamps : y.2 = x.2 ++ (List.range q.legs.length).map q.stamp := by
      have hcount : (x.1.transactions ++ rows).length - x.2.length = q.legs.length := by
        rw [List.length_append, hlen, hrows.length_eq]
        omega
      rw [hnote, Posting.stampRows]
      dsimp only
      rw [happ, hcount]
    have hentries : entries y id = entries x id ++
        (rows.zip ((List.range q.legs.length).map q.stamp)).filter fun e => e.1.walletId = id := by
      rw [entries, entries, happ, hstamps, List.zip_append hlen.symm, List.filter_append]
    rw [hentries, List.pairwise_append]
    refine ⟨hsorted id, ?_, fun e he e' he' => ?_⟩
    · -- Among themselves the new rows are in order by the condition on the legs.
      rw [List.pairwise_map] at hlegs
      refine (hlegs.filter _).imp_of_mem fun he he' hlt => hlt ?_
      rw [of_decide_eq_true (List.mem_filter.mp he).2, of_decide_eq_true (List.mem_filter.mp he').2]
    · -- After the old rows they are by the condition on the wallet's last row.
      obtain ⟨hmem, hid⟩ := List.mem_filter.mp he'
      refine hafter (e'.1.walletId, e'.2) (List.mem_map_of_mem hmem) e ?_
      rw [of_decide_eq_true hid]
      exact he

end StatementProof

/-! ## Pages -/

/-- Rows in the order of their stamps are listed backwards. -/
theorem newestFirst_eq {es : List Entry} (h : es.Pairwise fun e e' => e.2 < e'.2) :
    newestFirst es = es.reverse := by
  have hnodup : (es.map (·.2)).Nodup := by
    rw [List.nodup_iff_pairwise_ne, List.pairwise_map]
    exact h.imp fun hlt => ne_of_lt hlt
  have hperm : (newestFirst es).Perm es := List.perm_insertionSort _ _
  have hlisted : (newestFirst es).Pairwise fun a b => b.2 ≤ a.2 := List.pairwise_insertionSort _ _
  have hreverse : es.reverse.Pairwise fun a b => b.2 ≤ a.2 := by
    rw [List.pairwise_reverse]
    exact h.imp fun hlt => le_of_lt hlt
  refine List.Perm.eq_of_pairwise (fun a b ha hb hba hab => ?_) hlisted hreverse
    (hperm.trans (List.reverse_perm es).symm)
  exact List.inj_on_of_nodup_map hnodup (hperm.subset ha) (List.mem_reverse.mp hb)
    (le_antisymm hab hba)

/-- The rows before an anchor are the first ones. -/
theorem filter_lt_isPrefix (a : Stamp) : ∀ {es : List Entry},
    (es.Pairwise fun e e' => e.2 < e'.2) → es.filter (fun e => e.2 < a) <+: es
  | [], _ => List.prefix_rfl
  | e :: es, h => by
    obtain ⟨hlater, hrest⟩ := List.pairwise_cons.mp h
    by_cases hlt : e.2 < a
    · rw [List.filter_cons_of_pos (by simpa using hlt), List.prefix_cons_inj]
      exact filter_lt_isPrefix a hrest
    · -- Nothing after a row that is not before the anchor is before it.
      have hnil : (e :: es).filter (fun e => e.2 < a) = [] := by
        rw [List.filter_eq_nil_iff]
        intro e' he' hlt'
        have hlt' : e'.2 < a := of_decide_eq_true hlt'
        rcases List.mem_cons.mp he' with rfl | he'
        · exact hlt hlt'
        · exact hlt ((hlater e' he').trans hlt')
      rw [hnil]
      exact List.nil_prefix

/-- A ledger whose rows are all stamped, whose balances run, and whose rows are in the order of
their stamps. -/
structure Orderly (x : Dated) : Prop where
  stamped : x.2.length = x.1.transactions.length
  running : Running x.1
  sorted : ∀ id, (entries x id).Pairwise fun e e' => e.2 < e'.2

/-- The balances of a wallet's rows run in the order of the ledger. -/
theorem Orderly.chain {x : Dated} (h : Orderly x) (id : Id) :
    (entries x id).IsChain fun older newer => older.1.Continues newer.1 := by
  have hrows : (entries x id).map (·.1) = rowsOf id x.1.transactions := by
    calc (entries x id).map (·.1)
        = ((x.1.transactions.zip x.2).map Prod.fst).filter (·.walletId = id) := by
          rw [List.filter_map]
          rfl
      _ = rowsOf id x.1.transactions := by
          rw [List.map_fst_zip h.stamped.ge, rowsOf]
  have hchain := (h.running id).1
  rw [← hrows, List.isChain_map] at hchain
  exact hchain

/-- Every page of an orderly ledger is a running balance. -/
theorem Orderly.listTransactions {x : Dated} (h : Orderly x) (id : Id) (limit : ℕ)
    (beforeId : Option Id) :
    (listTransactions x id limit beforeId).IsChain fun newer older =>
      newer.1.balanceAfter = older.1.balanceAfter + newer.1.amount := by
  have hpage : ∀ {es : List Entry}, es <+: entries x id →
      ((newestFirst es).take limit).IsChain fun newer older => older.1.Continues newer.1 := by
    intro es hes
    have hsorted : es.Pairwise fun e e' => e.2 < e'.2 := (h.sorted id).sublist hes.sublist
    rw [newestFirst_eq hsorted]
    obtain ⟨rest, hrest⟩ := hes
    have hchain := h.chain id
    rw [← hrest] at hchain
    exact (List.isChain_reverse.mpr hchain.left_of_append).take limit
  unfold WalletRepository.listTransactions
  split
  · exact hpage List.prefix_rfl
  · exact hpage (filter_lt_isPrefix _ (h.sorted id))

/-! ## Runs -/

/-- The discipline of dated postings: every row is stamped, and the balances run. -/
def datedDiscipline : Discipline Dated Row Memory :=
  statementPolicy.discipline.beside fun d stamps => stamps.length = d.transactions.length

/-- Every posting keeps its discipline, and stamps the rows that it appends. -/
theorem Posts.ensures {p : Prog Dated Row Err Memory Posting} {m : Memory} (hp : Posts p) :
    datedDiscipline.Ensures
      (fun q x y => Appends q x.1 y.1 ∧ y.2 = q.stampRows (y.1, x.2)) m p := by
  obtain ⟨q, hcents, rfl⟩ := hp
  refine Discipline.Ensures.noting (StatementProof.book_ensures hcents) fun r d d' t _ hlen happ => ?_
  unfold Posting.stampRows
  simp only [List.length_append, List.length_map, List.length_range]
  rcases happ with hsame | ⟨-, rows, -, happ⟩
  · rw [hsame]
    omega
  · rw [happ, List.length_append]
    omega

/-- In every run of postings in which every group commits with rows that come after the rows of their
wallets, every page of every wallet's statement is a running balance. -/
theorem statement_runs (d₀ : Dated) (h₀ : Orderly d₀) (sys : System Dated Row Err Memory Posting)
    (hrun : System.RunUnder Posts (System.always Dated Row Memory) inOrder .empty d₀ sys)
    (walletId : Id) (limit : ℕ) (beforeId : Option Id) :
    (listTransactions sys.db walletId limit beforeId).IsChain fun newer older =>
      newer.1.balanceAfter = older.1.balanceAfter + newer.1.amount := by
  have horderly : Orderly sys.db := by
    have hinv : datedDiscipline.inv d₀ := ⟨h₀.running, h₀.stamped⟩
    -- Induction on the run; only a commit changes the tables.
    induction hrun with
    | init => exact h₀
    | begin _ _ ih => exact ih
    | abort _ _ _ ih => exact ih
    | step i hrun hgrants hfit hstep ih =>
      have hgood : Discipline.Good datedDiscipline _ _ :=
        Discipline.good_of_run (fun p hp => Posts.ensures hp) hinv hrun.run
      obtain ⟨hnext, t, -, ht, -, ⟨hdb, -⟩ | ⟨q, hret, -, -, happ, hnote⟩⟩ :=
        hgood.step hgrants hstep
      · rw [hdb]
        exact ih
      · refine ⟨hnext.inv.2, hnext.inv.1, ?_⟩
        exact StatementProof.sorted_of_commit ih.stamped ih.sorted happ hnote (hfit t q ht hret)
  exact horderly.listTransactions walletId limit beforeId

/-- A ledger without rows is orderly. -/
theorem Orderly.of_empty {d : Db} (h : d.transactions = []) : Orderly (d, []) where
  stamped := by simp [h]
  running id := by simp [h, rowsOf, lastBalance]
  sorted id := by simp [entries, h]

/-- The two top-ups that the gateway has not confirmed yet, and an empty ledger. -/
def Sample.pendingTopups : Dated := (twoTopups, [])

/-- The credit of a top-up, in a transaction that started at `now`. -/
def Sample.topupPosting (now : Time) (intentId : Id) (amount : ℤ) : Posting where
  now := now
  ids k := 1000 * intentId + k
  legs := topupLegs 11 23 intentId amount (-amount)
  correlationId := intentId

/-- The sample's top-up is a posting. -/
theorem Sample.posts_topup (now : Time) (intentId : Id) (amount : ℤ) :
    Posts (topupPosting now intentId amount).tx := ⟨_, topupLegs_inCents, rfl⟩

/-- The balances that a wallet's statement shows. -/
def Sample.balances (sys : System Dated Row Err Memory Posting) (walletId : Id) : List (ℤ × ℤ) :=
  (listTransactions sys.db walletId 20 none).map fun e => (e.1.amount, e.1.balanceAfter)

/-- Two top-ups that overlap, the first of which is granted the wallets first. -/
theorem statement_runs_topups :
    ∃ sys : System Dated Row Err Memory Posting,
      System.RunUnder Posts (System.always Dated Row Memory) inOrder .empty Sample.pendingTopups
        sys ∧
      Sample.balances sys 11 = [(5000, 15000), (10000, 10000)] ∧
      (listTransactions sys.db 11 20 none).IsChain fun newer older =>
        newer.1.balanceAfter = older.1.balanceAfter + newer.1.amount := by
  obtain ⟨sys, hrun, hq⟩ := System.RunUnder.exists_of_play Posts (System.always Dated Row Memory)
    inOrder .empty Sample.pendingTopups
    ([.start (Sample.topupPosting 1 301 10000).tx, .start (Sample.topupPosting 2 302 5000).tx,
      .step 1] ++ List.replicate 9 (.step 0) ++ List.replicate 8 (.step 1))
    (fun sys => Sample.balances sys 11 = [(5000, 15000), (10000, 10000)])
    (by
      intro p hp
      simp only [List.mem_append, List.mem_cons, List.mem_replicate, System.Event.start.injEq,
        List.not_mem_nil, reduceCtorEq, and_false, or_false] at hp
      rcases hp with rfl | rfl <;> exact Sample.posts_topup ..)
    (by decide +kernel)
  exact ⟨sys, hrun, of_decide_eq_true hq,
    statement_runs Sample.pendingTopups (.of_empty rfl) sys hrun 11 20 none⟩

/-- The second of two overlapping top-ups is granted the wallets first. The statement lists its row,
with the balance before the first top-up, as the newest one. -/
theorem overlapping_topups_disorder_statement :
    Orderly Sample.pendingTopups ∧
    ∃ sys : System Dated Row Err Memory Posting,
      System.Run Posts (System.always Dated Row Memory) .empty Sample.pendingTopups sys ∧
      Sample.balances sys 11 = [(5000, 5000), (10000, 15000)] ∧
      ¬(listTransactions sys.db 11 20 none).IsChain fun newer older =>
        newer.1.balanceAfter = older.1.balanceAfter + newer.1.amount := by
  refine ⟨.of_empty rfl, ?_⟩
  obtain ⟨sys, hrun, hq⟩ := System.Run.exists_of_play Posts (System.always Dated Row Memory) .empty
    Sample.pendingTopups
    ([.start (Sample.topupPosting 1 301 10000).tx, .start (Sample.topupPosting 2 302 5000).tx] ++
      List.replicate 9 (.step 1) ++ List.replicate 9 (.step 0))
    (fun sys => Sample.balances sys 11 = [(5000, 5000), (10000, 15000)])
    (by
      intro p hp
      simp only [List.mem_append, List.mem_cons, List.mem_replicate, System.Event.start.injEq,
        List.not_mem_nil, reduceCtorEq, and_false, or_false] at hp
      rcases hp with rfl | rfl <;> exact Sample.posts_topup ..)
    (by decide +kernel)
  have hbalances : Sample.balances sys 11 = [(5000, 5000), (10000, 15000)] := of_decide_eq_true hq
  refine ⟨sys, hrun, hbalances, fun hchain => ?_⟩
  have hrows : (Sample.balances sys 11).IsChain fun newer older =>
      newer.2 = older.2 + newer.1 := (List.isChain_map _).mpr hchain
  rw [hbalances] at hrows
  exact absurd hrows (by decide)

end Giftly
