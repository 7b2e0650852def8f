import Giftly.Accounts.Changes
import Giftly.Accounts.Identity

/-!
# Refresh tokens over a run

A family starts with a login or a registration, and an exchange adds one token to it and uses one up:
so at most one token of a family is alive at any time, and its user is not banned (`TokensOk`). A family
without a live token stays so, and a token that was exchanged is never exchanged again.
-/

namespace Giftly

open Store (Table)

namespace Access

variable {env : AccountEnv}

/-- A user that is there and not banned. -/
def Unbanned (a : Accounts env.aes) (id : Id) : Prop :=
  ∃ s, a.standing id = some s ∧ s.status ≠ .banned

/-! ## What a change does to a row -/

/-- A row that was there before. It is alive only if nothing was done to it. -/
structure Kept (t t' : RefreshToken) : Prop where
  userId : t'.userId = t.userId
  familyId : t'.familyId = t.familyId
  tokenHash : t'.tokenHash = t.tokenHash
  live : t'.Live → t.Live

/-- A row to which nothing was done. -/
theorem Kept.refl (t : RefreshToken) : Kept t t := ⟨rfl, rfl, rfl, id⟩

/-- A row that was revoked. -/
theorem Kept.revoked (now : Time) (t : RefreshToken) : Kept t (t.revoked now) := by
  obtain ⟨huser, hfamily, hhash⟩ := t.revoked_columns now
  exact ⟨huser, hfamily, hhash, fun h => absurd h RefreshToken.not_live_revoked⟩

/-- Where a row of the refresh tokens comes from, after a change. -/
inductive RowAfter (env : AccountEnv) (now : Time) (x : Request env) (a a' : Accounts env.aes)
    (rid : Id) (t' : RefreshToken) : Prop
  /-- It was there before. -/
  | kept (t : RefreshToken) (hrow : a.refreshTokens.get? rid = some t) (hkept : Kept t t')
  /-- It was issued: as the first of a family, or in the place of a live row of its family. -/
  | issued (r : Drawn) (id family : Id) (hdrawn : x.drawn = some r) (hrid : rid = r.refreshId)
    (hrow : t' = refreshRow env now r id family) (hunbanned : Unbanned a' id)
    (hfamily : family = r.familyId ∨ ∃ rid₀ t₀, a.refreshTokens.get? rid₀ = some t₀ ∧ t₀.Live ∧
      t₀.userId = id ∧ t₀.familyId = family ∧
      ∀ t₁, a'.refreshTokens.get? rid₀ = some t₁ → ¬t₁.Live)

section Row

variable {now : Time} {x : Request env} {a a₁ a' : Accounts env.aes} {tokens : List env.jwt.Token}
  {rid : Id} {t' : RefreshToken}

/-- A row after tokens were issued is the new one, or it was there. -/
theorem Issued.row {r : Drawn} {id family : Id} (h : Issued env now r id family a a')
    (hrow : a'.refreshTokens.get? rid = some t') :
    (rid = r.refreshId ∧ t' = refreshRow env now r id family) ∨
      (rid ≠ r.refreshId ∧ a.refreshTokens.get? rid = some t') := by
  rw [h.tokens] at hrow
  by_cases hrid : rid = r.refreshId
  · subst hrid
    rw [Table.get?_insert_self _ _ h.free] at hrow
    exact .inl ⟨rfl, (Option.some.inj hrow).symm⟩
  · rw [Table.get?_insert_ne _ _ hrid] at hrow
    exact .inr ⟨hrid, hrow⟩

/-- A row after some rows were revoked. -/
theorem row_of_revoked {p : RefreshToken → Prop} [DecidablePred p]
    (ht : a'.refreshTokens = a.refreshTokens.mapRows fun _ u => if p u then u.revoked now else u)
    (hrow : a'.refreshTokens.get? rid = some t') :
    ∃ t, a.refreshTokens.get? rid = some t ∧ Kept t t' ∧ (p t → ¬t'.Live) := by
  rw [ht, Table.get?_mapRows] at hrow
  obtain ⟨t, hold, rfl⟩ := Option.map_eq_some_iff.mp hrow
  refine ⟨t, hold, ?_⟩
  split_ifs with hp
  · exact ⟨.revoked now t, fun _ => RefreshToken.not_live_revoked⟩
  · exact ⟨.refl t, fun h => absurd h hp⟩

/-- A row after one row was used. -/
theorem row_of_used {rid₀ : Id} (ht : a'.refreshTokens =
      a.refreshTokens.update rid₀ fun t => { t with usedAt := some now })
    (hrow : a'.refreshTokens.get? rid = some t') :
    ∃ t, a.refreshTokens.get? rid = some t ∧ Kept t t' ∧ (rid = rid₀ → ¬t'.Live) := by
  rw [ht, Table.get?_update] at hrow
  split_ifs at hrow with hrid
  · obtain ⟨t, hold, rfl⟩ := Option.map_eq_some_iff.mp hrow
    have hdead : ¬({ t with usedAt := some now } : RefreshToken).Live := by
      simp [RefreshToken.Live]
    exact ⟨t, hold, ⟨rfl, rfl, rfl, fun h => absurd h hdead⟩, fun _ => hdead⟩
  · exact ⟨t', hrow, .refl t', fun h => absurd h hrid⟩

/-- The rows after a change. -/
theorem Change.row (h : Change env now x a tokens a')
    (hrow : a'.refreshTokens.get? rid = some t') : RowAfter env now x a a' rid t' := by
  cases h with
  | quiet _ _ ht | joined _ _ _ _ _ _ ht | verified _ _ _ _ _ ht | unbanned _ _ _ _ _ _ ht =>
    rw [ht] at hrow
    exact .kept t' hrow (.refl t')
  | invited => exact .kept t' hrow (.refl t')
  | signedIn r id s hdrawn hban hs ht hid hstatus hissued =>
    have hunbanned : Unbanned a' id :=
      ⟨s, by rw [Accounts.standing_congr hissued.users, hid], hstatus⟩
    obtain ⟨hrid, rfl⟩ | ⟨-, hrow⟩ := hissued.row hrow
    · exact .issued r id _ hdrawn hrid rfl hunbanned (.inl rfl)
    · rw [ht] at hrow
      exact .kept t' hrow (.refl t')
  | rotated r rid₀ t₀ s hdrawn hban hrow₀ hlive₀ hs ht hid hstatus hissued =>
    have hunbanned : Unbanned a' t₀.userId :=
      ⟨s, by rw [Accounts.standing_congr hissued.users, hid], hstatus⟩
    -- the new row has a key of its own, so the row that was used stays as it is
    have hused : ∀ t₁, a'.refreshTokens.get? rid₀ = some t₁ → ¬t₁.Live := by
      intro t₁ hrow₁
      obtain ⟨hrid₁, -⟩ | ⟨-, hrow₁⟩ := hissued.row hrow₁
      · have hfree := hissued.free
        rw [← hrid₁, ht, Table.get?_update_self, hrow₀] at hfree
        cases hfree
      · obtain ⟨t, -, -, hdead⟩ := row_of_used ht hrow₁
        exact hdead rfl
    obtain ⟨hrid, rfl⟩ | ⟨-, hrow⟩ := hissued.row hrow
    · exact .issued r _ _ hdrawn hrid rfl hunbanned (.inr ⟨rid₀, t₀, hrow₀, hlive₀, rfl, rfl, hused⟩)
    · obtain ⟨t, hrow, hkept, -⟩ := row_of_used ht hrow
      exact .kept t hrow hkept
  | replayed _ _ _ _ _ _ ht | banned _ _ _ _ _ _ ht =>
    obtain ⟨t, hrow, hkept, -⟩ := row_of_revoked ht hrow
    exact .kept t hrow hkept
  | purged keep _ _ ht =>
    rw [ht, Table.get?_filter] at hrow
    exact .kept t' (Option.filter_eq_some_iff.mp hrow).1 (.refl t')

/-- A ban leaves no live token of the user. -/
theorem Change.dead_of_ban {id : Id} (h : Change env now x a tokens a')
    (hban : x.ban = some (id, true)) (hrow : a'.refreshTokens.get? rid = some t')
    (huser : t'.userId = id) : ¬t'.Live := by
  cases h with
  | banned j role status hban' hold hs ht =>
    obtain rfl : j = id := by
      have hpair := hban'.symm.trans hban
      simpa using hpair
    obtain ⟨t, -, hkept, hdead⟩ := row_of_revoked ht hrow
    exact hdead (hkept.userId.symm.trans huser)
  | unbanned _ _ _ hban' =>
    have hpair := hban'.symm.trans hban
    simp at hpair
  | quiet hban' | invited _ hban' | joined _ _ hban' | verified _ _ hban' | signedIn _ _ _ _ hban'
  | rotated _ _ _ _ _ hban' | replayed _ _ hban' | purged _ hban' =>
    rw [hban] at hban'
    cases hban'

/-- A request that bans a user draws no tokens. -/
theorem Request.drawn_of_ban (x : Request env) (h : x.ban.isSome) : x.drawn = none := by
  cases x <;> simp_all [Request.ban, Request.drawn]

/-- A user that is not banned stays so, unless the request bans that user. -/
theorem Change.unbanned_or {id : Id} (h : Change env now x a tokens a') (hid : Unbanned a id) :
    Unbanned a' id ∨ x.ban = some (id, true) := by
  obtain ⟨s, hs, hstatus⟩ := hid
  obtain ⟨-, hkeeps⟩ | ⟨j, role, status, b, hban, hold, hnew⟩ := h.standing_cases
  · obtain ⟨st, hst⟩ := hkeeps.role id s hs
    refine .inl ⟨⟨s.role, st⟩, hst, ?_⟩
    rintro rfl
    have hbanned := (hkeeps.banned id s.role).mp hst
    rw [hs] at hbanned
    exact hstatus (congrArg Standing.status (Option.some.inj hbanned))
  · by_cases hj : id = j
    · subst hj
      obtain _ | _ := b
      · exact .inl ⟨_, by rw [hnew, Function.update_self], active_ne_banned⟩
      · exact .inr hban
    · exact .inl ⟨s, by rw [hnew, Function.update_of_ne hj, hs], hstatus⟩

end Row

/-! ## Runs -/

/-- A request that is served either changes the tables or leaves them. -/
theorem World.serve_cases (w : World env) (now : Time) (x : Request env) :
    (∃ tokens a', Change env now x w.accounts tokens a' ∧ w.serve now x =
      { w with
        accounts := a'
        keys := w.keys.flag env.settings now x.ban
        now
        handed := w.handed ++ tokens
        drawn := w.drawn ++ x.drawn.toList }) ∨
      w.serve now x = { w with now, drawn := w.drawn ++ x.drawn.toList } := by
  unfold World.serve
  split
  · rename_i tokens a' hok
    exact .inl ⟨tokens, a', Request.change hok, rfl⟩
  · exact .inr rfl

/-- What was drawn before a request was drawn. -/
theorem World.mem_serve {w : World env} {now : Time} {x : Request env} {r : Drawn}
    (hr : r ∈ w.drawn) : r ∈ (w.serve now x).drawn := by
  obtain ⟨tokens, a', -, heq⟩ | heq := w.serve_cases now x
  all_goals
    rw [heq]
    exact List.mem_append_left _ hr

/-- A logout leaves the tables, what was handed out and what was drawn. -/
theorem World.serveLogout_same (w : World env) (now : Time) (token : env.jwt.Token) :
    (w.serveLogout now token).accounts = w.accounts ∧
      (w.serveLogout now token).handed = w.handed ∧ (w.serveLogout now token).drawn = w.drawn ∧
      (w.serveLogout now token).now = now := by
  unfold World.serveLogout
  split <;> exact ⟨rfl, rfl, rfl, rfl⟩

/-- What holds of the refresh tokens of a world at all times. -/
structure TokensOk (a : Accounts env.aes) (drawn : List Drawn) : Prop where
  family : ∀ rid t, a.refreshTokens.get? rid = some t → ∃ r ∈ drawn, r.familyId = t.familyId
  hash : ∀ rid t, a.refreshTokens.get? rid = some t →
    ∃ r ∈ drawn, env.sha256Hex r.raw = t.tokenHash
  unique : ∀ rid₁ rid₂ t₁ t₂, a.refreshTokens.get? rid₁ = some t₁ →
    a.refreshTokens.get? rid₂ = some t₂ → t₁.tokenHash = t₂.tokenHash → rid₁ = rid₂
  owner : ∀ rid₁ rid₂ t₁ t₂, a.refreshTokens.get? rid₁ = some t₁ →
    a.refreshTokens.get? rid₂ = some t₂ → t₁.familyId = t₂.familyId → t₁.userId = t₂.userId
  single : ∀ rid₁ rid₂ t₁ t₂, a.refreshTokens.get? rid₁ = some t₁ →
    a.refreshTokens.get? rid₂ = some t₂ → t₁.familyId = t₂.familyId → t₁.Live → t₂.Live →
    rid₁ = rid₂
  unbanned : ∀ rid t, a.refreshTokens.get? rid = some t → t.Live → Unbanned a t.userId

section Step

variable {now : Time} {x : Request env} {a a' : Accounts env.aes} {tokens : List env.jwt.Token}
  {drawn : List Drawn}

/-- The tokens stay in order when more values are drawn. -/
theorem TokensOk.of_drawn (hok : TokensOk a drawn) (more : List Drawn) :
    TokensOk a (drawn ++ more) where
  family rid t hrow := by
    obtain ⟨r, hr, heq⟩ := hok.family rid t hrow
    exact ⟨r, List.mem_append_left _ hr, heq⟩
  hash rid t hrow := by
    obtain ⟨r, hr, heq⟩ := hok.hash rid t hrow
    exact ⟨r, List.mem_append_left _ hr, heq⟩
  unique := hok.unique
  owner := hok.owner
  single := hok.single
  unbanned := hok.unbanned

/-- A row that was there, beside one of its family that was issued. -/
theorem TokensOk.kept_issued (hok : TokensOk a drawn) {r : Drawn} (hfresh : Fresh env drawn r)
    {rid₁ id family : Id} {t₁ t₁' : RefreshToken} (hrow₁ : a.refreshTokens.get? rid₁ = some t₁)
    (hrow₁' : a'.refreshTokens.get? rid₁ = some t₁') (hkept : Kept t₁ t₁')
    (hfamily : family = r.familyId ∨ ∃ rid₀ t₀, a.refreshTokens.get? rid₀ = some t₀ ∧ t₀.Live ∧
      t₀.userId = id ∧ t₀.familyId = family ∧
      ∀ t, a'.refreshTokens.get? rid₀ = some t → ¬t.Live)
    (heq : t₁'.familyId = family) : t₁'.userId = id ∧ ¬t₁'.Live := by
  rw [hkept.familyId] at heq
  obtain hfirst | ⟨rid₀, t₀, hrow₀, hlive₀, rfl, hfamily₀, hused⟩ := hfamily
  · -- no row is of a family that is drawn now
    obtain ⟨y, hy, hfam⟩ := hok.family rid₁ t₁ hrow₁
    exact absurd (hfam.trans (heq.trans hfirst)) (hfresh y hy).2.1
  · have hsame : t₁.familyId = t₀.familyId := heq.trans hfamily₀.symm
    constructor
    · rw [hkept.userId]
      exact hok.owner rid₁ rid₀ t₁ t₀ hrow₁ hrow₀ hsame
    · intro hlive
      -- Only one row of a family is live, and it is the row that is being spent.
      have hrid : rid₁ = rid₀ :=
        hok.single rid₁ rid₀ t₁ t₀ hrow₁ hrow₀ hsame (hkept.live hlive) hlive₀
      subst hrid
      exact hused t₁' hrow₁' hlive

/-- The hash of a row that was there is not that of a token that is drawn now. -/
theorem TokensOk.hash_ne (hok : TokensOk a drawn) {r : Drawn} (hfresh : Fresh env drawn r)
    {rid : Id} {t : RefreshToken} (hrow : a.refreshTokens.get? rid = some t) :
    t.tokenHash ≠ env.sha256Hex r.raw := by
  obtain ⟨y, hy, hhash⟩ := hok.hash rid t hrow
  rw [← hhash]
  exact (hfresh y hy).2.2

/-- One request keeps the refresh tokens in order. -/
theorem TokensOk.change (hok : TokensOk a drawn) (h : Change env now x a tokens a')
    (hfresh : ∀ r ∈ x.drawn, Fresh env drawn r) : TokensOk a' (drawn ++ x.drawn.toList) := by
  have hmem : ∀ {r}, x.drawn = some r → r ∈ drawn ++ x.drawn.toList := by
    intro r hr
    simp [hr]
  -- two rows of one family, of which the second is kept or both are the one that was issued
  have hpair : ∀ rid₁ rid₂ t₁ t₂, a'.refreshTokens.get? rid₁ = some t₁ →
      a'.refreshTokens.get? rid₂ = some t₂ → t₁.familyId = t₂.familyId →
      t₁.userId = t₂.userId ∧ (t₁.Live → t₂.Live → rid₁ = rid₂) := by
    intro rid₁ rid₂ t₁ t₂ hrow₁ hrow₂ heq
    cases h.row hrow₁ with
    | kept s₁ hs₁ hk₁ =>
      cases h.row hrow₂ with
      | kept s₂ hs₂ hk₂ =>
        have hsame : s₁.familyId = s₂.familyId := by rw [← hk₁.familyId, heq, hk₂.familyId]
        have howner := hok.owner rid₁ rid₂ s₁ s₂ hs₁ hs₂ hsame
        have hsingle := hok.single rid₁ rid₂ s₁ s₂ hs₁ hs₂ hsame
        exact ⟨by rw [hk₁.userId, howner, hk₂.userId],
          fun h₁ h₂ => hsingle (hk₁.live h₁) (hk₂.live h₂)⟩
      | issued r id family hdrawn hrid hrow hunbanned hfamily =>
        subst hrow
        obtain ⟨huser, hdead⟩ :=
          hok.kept_issued (hfresh r hdrawn) hs₁ hrow₁ hk₁ hfamily heq
        exact ⟨huser, fun hlive => absurd hlive hdead⟩
    | issued r id family hdrawn hrid hrow hunbanned hfamily =>
      subst hrow
      cases h.row hrow₂ with
      | kept s₂ hs₂ hk₂ =>
        obtain ⟨huser, hdead⟩ :=
          hok.kept_issued (hfresh r hdrawn) hs₂ hrow₂ hk₂ hfamily heq.symm
        exact ⟨huser.symm, fun _ hlive => absurd hlive hdead⟩
      | issued r₂ id₂ family₂ hdrawn₂ hrid₂ =>
        obtain rfl := Option.some.inj (hdrawn.symm.trans hdrawn₂)
        obtain rfl := hrid.trans hrid₂.symm
        obtain rfl := Option.some.inj (hrow₁.symm.trans hrow₂)
        exact ⟨rfl, fun _ _ => rfl⟩
  have hhash : ∀ rid₁ rid₂ t₁ t₂, a'.refreshTokens.get? rid₁ = some t₁ →
      a'.refreshTokens.get? rid₂ = some t₂ → t₁.tokenHash = t₂.tokenHash → rid₁ = rid₂ := by
    intro rid₁ rid₂ t₁ t₂ hrow₁ hrow₂ heq
    cases h.row hrow₁ with
    | kept s₁ hs₁ hk₁ =>
      cases h.row hrow₂ with
      | kept s₂ hs₂ hk₂ =>
        exact hok.unique rid₁ rid₂ s₁ s₂ hs₁ hs₂ (by rw [← hk₁.tokenHash, heq, hk₂.tokenHash])
      | issued r id family hdrawn hrid hrow =>
        subst hrow
        exact absurd (hk₁.tokenHash.symm.trans heq) (hok.hash_ne (hfresh r hdrawn) hs₁)
    | issued r id family hdrawn hrid hrow =>
      subst hrow
      cases h.row hrow₂ with
      | kept s₂ hs₂ hk₂ =>
        exact absurd (hk₂.tokenHash.symm.trans heq.symm) (hok.hash_ne (hfresh r hdrawn) hs₂)
      | issued r₂ id₂ family₂ hdrawn₂ hrid₂ =>
        obtain rfl := Option.some.inj (hdrawn.symm.trans hdrawn₂)
        exact hrid.trans hrid₂.symm
  constructor
  · intro rid t hrow
    cases h.row hrow with
    | kept s hs hk =>
      obtain ⟨r, hr, heq⟩ := hok.family rid s hs
      exact ⟨r, List.mem_append_left _ hr, heq.trans hk.familyId.symm⟩
    | issued r id family hdrawn hrid hrow' hunbanned hfamily =>
      subst hrow'
      obtain rfl | ⟨rid₀, t₀, hrow₀, -, -, rfl, -⟩ := hfamily
      · exact ⟨r, hmem hdrawn, rfl⟩
      · obtain ⟨y, hy, heq⟩ := hok.family rid₀ t₀ hrow₀
        exact ⟨y, List.mem_append_left _ hy, heq⟩
  · intro rid t hrow
    cases h.row hrow with
    | kept s hs hk =>
      obtain ⟨r, hr, heq⟩ := hok.hash rid s hs
      exact ⟨r, List.mem_append_left _ hr, heq.trans hk.tokenHash.symm⟩
    | issued r id family hdrawn hrid hrow' =>
      subst hrow'
      exact ⟨r, hmem hdrawn, rfl⟩
  · exact hhash
  · intro rid₁ rid₂ t₁ t₂ hrow₁ hrow₂ heq
    exact (hpair rid₁ rid₂ t₁ t₂ hrow₁ hrow₂ heq).1
  · intro rid₁ rid₂ t₁ t₂ hrow₁ hrow₂ heq
    exact (hpair rid₁ rid₂ t₁ t₂ hrow₁ hrow₂ heq).2
  · intro rid t hrow hlive
    cases h.row hrow with
    | kept s hs hk =>
      rw [hk.userId]
      obtain hunbanned | hban := h.unbanned_or (hok.unbanned rid s hs (hk.live hlive))
      · exact hunbanned
      · exact absurd hlive (h.dead_of_ban hban hrow hk.userId)
    | issued r id family hdrawn hrid hrow' hunbanned =>
      subst hrow'
      exact hunbanned

/-- Rows that meet a condition are dead, and no request brings one to life. -/
structure Settled (env : AccountEnv) (drawn : List Drawn) (p : RefreshToken → Prop) : Prop where
  kept : ∀ t t', Kept t t' → p t' → p t
  issued : ∀ now r id family, Fresh env drawn r → p (refreshRow env now r id family) →
    family ≠ r.familyId ∧ ∀ t, t.familyId = family → p t

/-- No row that meets a condition is alive. -/
def Dead (a : Accounts env.aes) (p : RefreshToken → Prop) : Prop :=
  ∀ rid t, a.refreshTokens.get? rid = some t → p t → ¬t.Live

/-- A request brings no dead row of the kind to life. -/
theorem Settled.change {p : RefreshToken → Prop} (hp : Settled env drawn p) (hdead : Dead a p)
    (h : Change env now x a tokens a') (hfresh : ∀ r ∈ x.drawn, Fresh env drawn r) :
    Dead a' p := by
  intro rid t hrow hpt hlive
  cases h.row hrow with
  | kept s hs hk => exact hdead rid s hs (hp.kept s t hk hpt) (hk.live hlive)
  | issued r id family hdrawn hrid hrow' hunbanned hfamily =>
    subst hrow'
    obtain ⟨hne, hall⟩ := hp.issued now r id family (hfresh r hdrawn) hpt
    obtain heq | ⟨rid₀, t₀, hrow₀, hlive₀, -, heq, -⟩ := hfamily
    · exact hne heq
    · exact hdead rid₀ t₀ hrow₀ (hall t₀ heq) hlive₀

/-- The tokens of a family that was drawn. -/
theorem settled_family {r : Drawn} (hr : r ∈ drawn) :
    Settled env drawn fun t => t.familyId = r.familyId := by
  constructor
  · intro t t' hk heq
    rw [← hk.familyId, heq]
  · intro now r' id family hfresh heq
    have hne : r.familyId ≠ r'.familyId := (hfresh r hr).2.1
    have hfamily : family = r.familyId := heq
    exact ⟨fun h => hne (hfamily.symm.trans h), fun t ht => ht.trans hfamily⟩

/-- A raw token that was drawn. -/
theorem settled_hash {r : Drawn} (hr : r ∈ drawn) :
    Settled env drawn fun t => t.tokenHash = env.sha256Hex r.raw := by
  constructor
  · intro t t' hk heq
    rw [← hk.tokenHash, heq]
  · intro now r' id family hfresh heq
    have hne : env.sha256Hex r.raw ≠ env.sha256Hex r'.raw := (hfresh r hr).2.2
    exact absurd heq.symm hne

end Step

section Runs

variable {w₀ w w' : World env}

/-- What was drawn before was drawn. -/
theorem World.Run.drawn (hrun : World.Run w w') : ∀ r ∈ w.drawn, r ∈ w'.drawn := by
  intro r hr
  induction hrun with
  | refl => exact hr
  | serve hrun now x hnow hfresh ih => exact World.mem_serve ih
  | @logout w' hrun now token hnow hgenuine ih =>
    rw [(w'.serveLogout_same now token).2.2.1]
    exact ih

/-- The refresh tokens are in order at all times. -/
theorem World.Run.tokensOk (hstart : w₀.Start) (hrun : World.Run w₀ w) :
    TokensOk w.accounts w.drawn := by
  induction hrun with
  | refl =>
    -- At the start there are no tokens.
    have hnone : ∀ rid t, w₀.accounts.refreshTokens.get? rid ≠ some t := by
      intro rid t h
      rw [hstart.tokens, Table.get?_empty] at h
      cases h
    exact ⟨fun rid t h => absurd h (hnone rid t), fun rid t h => absurd h (hnone rid t),
      fun rid _ t _ h => absurd h (hnone rid t), fun rid _ t _ h => absurd h (hnone rid t),
      fun rid _ t _ h => absurd h (hnone rid t), fun rid t h => absurd h (hnone rid t)⟩
  | @serve w hrun now x hnow hfresh ih =>
    -- A request that is served changes the tables in one of the listed ways, or not at all.
    obtain ⟨tokens, a', hchange, heq⟩ | heq := w.serve_cases now x
    · rw [heq]
      exact ih.change hchange hfresh
    · rw [heq]
      exact ih.of_drawn _
  | @logout w hrun now token hnow hgenuine ih =>
    obtain ⟨haccounts, -, hdrawn, -⟩ := w.serveLogout_same now token
    rw [haccounts, hdrawn]
    exact ih

/-- Rows that are dead stay so. -/
theorem World.Run.dead {p : RefreshToken → Prop} (hp : Settled env w.drawn p)
    (hdead : Dead w.accounts p) (hrun : World.Run w w') : Dead w'.accounts p := by
  induction hrun with
  | refl => exact hdead
  | @serve w' hrun now x hnow hfresh ih =>
    obtain ⟨tokens, a', hchange, heq⟩ | heq := w'.serve_cases now x
    · rw [heq]
      have hp' : Settled env w'.drawn p :=
        ⟨hp.kept, fun now r id family hr =>
          hp.issued now r id family fun y hy => hr y (hrun.drawn y hy)⟩
      exact hp'.change ih hchange hfresh
    · rw [heq]
      exact ih
  | @logout w' hrun now token hnow hgenuine ih =>
    rw [(w'.serveLogout_same now token).1]
    exact ih

/-- Tokens of a condition that are dead are not exchanged at any later time. -/
theorem not_exchanged_of_dead {p : RefreshToken → Prop} {now : Time} {r : Drawn} {raw : Text}
    {pair : TokenPair env} {a a' : Accounts env.aes} (hdead : Dead a p)
    (hraw : ∀ rid t, a.refreshTokens.find? (fun _ t => t.tokenHash = env.sha256Hex raw) =
      some (rid, t) → p t) :
    AuthService.refresh env now r raw a ≠ .ok (.ok pair, a') := by
  intro hok
  obtain ⟨rid, t, hfound⟩ := refresh_found hok
  have hnot : ¬t.Live := hdead rid t (Table.find?_eq_some hfound).1 (hraw rid t hfound)
  obtain ⟨e, a₁, heq, -, -⟩ := refresh_dead now r hfound hnot
  rw [hok] at heq
  cases heq

/-- The tables after a request that passes. -/
theorem World.serve_accounts {now : Time} {x : Request env} {tokens : List env.jwt.Token}
    {a' : Accounts env.aes} (h : x.handle now w.accounts = .ok (tokens, a')) :
    (w.serve now x).accounts = a' := by
  unfold World.serve
  rw [h]

/-- The tables after an exchange, or after a replay. -/
theorem World.serve_refresh {now : Time} {r : Drawn} {raw : Text} {a' : Accounts env.aes}
    {result : Except Err (TokenPair env)}
    (h : AuthService.refresh env now r raw w.accounts = .ok (result, a')) :
    (w.serve now (.refresh r raw)).accounts = a' := by
  obtain e | pair := result
  · have hhandle : (Request.refresh r raw).handle now w.accounts = .ok ([], a') := bind_of_ok h
    exact World.serve_accounts hhandle
  · have hhandle : (Request.refresh r raw).handle now w.accounts =
        .ok ([pair.accessToken], a') := bind_of_ok h
    exact World.serve_accounts hhandle

/-- After a token that is not live was presented, its family is dead. -/
theorem dead_of_replay (now : Time) (r : Drawn) {raw : Text} {rid : Id} {t : RefreshToken}
    (hfound : w.accounts.refreshTokens.find? (fun _ t => t.tokenHash = env.sha256Hex raw) =
      some (rid, t)) (hdead : ¬t.Live) :
    Dead (w.serve now (.refresh r raw)).accounts fun u => u.familyId = t.familyId := by
  obtain ⟨e, a₁, heq, -, htokens⟩ := refresh_dead now r hfound hdead
  rw [World.serve_refresh heq]
  intro rid' t' hrow hfamily
  obtain ⟨s, -, hkept, hrevoked⟩ := row_of_revoked htokens hrow
  exact hrevoked (hkept.familyId.symm.trans hfamily)

/-- At any time at most one token of a family is alive, and its user is there and not banned. -/
theorem live_token_unique (hstart : w₀.Start) (hrun : World.Run w₀ w) :
    (∀ rid₁ rid₂ t₁ t₂, w.accounts.refreshTokens.get? rid₁ = some t₁ →
      w.accounts.refreshTokens.get? rid₂ = some t₂ → t₁.familyId = t₂.familyId →
      t₁.Live → t₂.Live → rid₁ = rid₂) ∧
    ∀ rid t, w.accounts.refreshTokens.get? rid = some t → t.Live →
      ∃ u, w.accounts.users.get? t.userId = some u ∧ u.status ≠ .banned := by
  have htokens : TokensOk w.accounts w.drawn := hrun.tokensOk hstart
  refine ⟨htokens.single, fun rid t hrow hlive => ?_⟩
  obtain ⟨s, hs, hstatus⟩ := htokens.unbanned rid t hrow hlive
  obtain ⟨u, hu, -, heq⟩ := Accounts.standing_eq_some.mp hs
  exact ⟨u, hu, heq ▸ hstatus⟩

/-- A raw refresh token is exchanged at most once, however the requests are ordered. -/
theorem exchanged_once (hstart : w₀.Start) (hrun : World.Run w₀ w) {now : Time} {r : Drawn}
    {raw : Text} {pair : TokenPair env} {a' : Accounts env.aes} (hfresh : Fresh env w.drawn r)
    (hok : AuthService.refresh env now r raw w.accounts = .ok (.ok pair, a'))
    (hafter : World.Run (w.serve now (.refresh r raw)) w') (now' : Time) (r' : Drawn)
    (pair' : TokenPair env) (a'' : Accounts env.aes) :
    AuthService.refresh env now' r' raw w'.accounts ≠ .ok (.ok pair', a'') := by
  have htokens : TokensOk w.accounts w.drawn := hrun.tokensOk hstart
  obtain ⟨rid, t, hfound⟩ := refresh_found hok
  obtain ⟨hrow, hhash⟩ := Table.find?_eq_some hfound
  have hlive : t.Live := by
    by_contra hdead
    obtain ⟨e, a₁, heq, -, -⟩ := refresh_dead now r hfound hdead
    rw [hok] at heq
    cases heq
  obtain ⟨a₁, s, -, -, -, -, hused, -, -, hissued⟩ := refresh_live hfound hlive hok
  obtain ⟨y, hy, hdrawn⟩ := htokens.hash rid t hrow
  have hraw : t.tokenHash = env.sha256Hex raw := by simpa using hhash
  -- the only row of the raw token is the one that was used
  have hspent : Dead (w.serve now (.refresh r raw)).accounts
      fun u => u.tokenHash = env.sha256Hex y.raw := by
    rw [World.serve_refresh hok]
    intro rid' t' hrow' heq
    obtain ⟨-, rfl⟩ | ⟨-, hrow'⟩ := hissued.row hrow'
    · exact absurd heq.symm (hfresh y hy).2.2
    · obtain ⟨u, hu, hkept, hdead⟩ := row_of_used hused hrow'
      have hhash' : u.tokenHash = t.tokenHash := by rw [← hkept.tokenHash, heq, hdrawn]
      exact hdead (htokens.unique rid' rid u t hu hrow hhash')
  have hdead := hafter.dead (settled_hash (World.mem_serve hy)) hspent
  apply not_exchanged_of_dead hdead
  intro rid' t' hfound'
  have hhash' : t'.tokenHash = env.sha256Hex raw := by
    simpa using (Table.find?_eq_some hfound').2
  rw [hhash', ← hraw, hdrawn]

/-- Once a token that is not live was presented, no token of its family is ever exchanged. -/
theorem replay_ends_family (hstart : w₀.Start) (hrun : World.Run w₀ w) {now : Time} {r : Drawn}
    {raw : Text} {rid : Id} {t : RefreshToken}
    (hfound : w.accounts.refreshTokens.find? (fun _ t => t.tokenHash = env.sha256Hex raw) =
      some (rid, t)) (hdead : ¬t.Live)
    (hafter : World.Run (w.serve now (.refresh r raw)) w') {raw' : Text} {rid' : Id}
    {t' : RefreshToken} (hfound' : w'.accounts.refreshTokens.find?
      (fun _ t => t.tokenHash = env.sha256Hex raw') = some (rid', t'))
    (hfamily : t'.familyId = t.familyId) (now' : Time) (r' : Drawn) (pair : TokenPair env)
    (a' : Accounts env.aes) :
    AuthService.refresh env now' r' raw' w'.accounts ≠ .ok (.ok pair, a') := by
  obtain ⟨y, hy, hdrawn⟩ := (hrun.tokensOk hstart).family rid t (Table.find?_eq_some hfound).1
  have hfirst := dead_of_replay now r hfound hdead
  rw [← hdrawn] at hfirst
  have hlater := hafter.dead (settled_family (World.mem_serve hy)) hfirst
  apply not_exchanged_of_dead hlater
  intro rid'' t'' hfound''
  obtain ⟨-, rfl⟩ := Prod.mk.inj (Option.some.inj (hfound'.symm.trans hfound''))
  exact hfamily.trans hdrawn.symm

/-- Once a user was banned, or deleted, no token of a family of that user is ever exchanged, whether
or not the ban is lifted. -/
theorem ban_ends_tokens (hstart : w₀.Start) (hrun : World.Run w₀ w) {now : Time} {x : Request env}
    {id : Id} (hban : x.ban = some (id, true)) {tokens : List env.jwt.Token}
    {a₁ : Accounts env.aes} (hok : x.handle now w.accounts = .ok (tokens, a₁))
    (hafter : World.Run (w.serve now x) w') {rid rid' : Id} {t t' : RefreshToken} {raw' : Text}
    (hrow : w.accounts.refreshTokens.get? rid = some t) (huser : t.userId = id)
    (hfound' : w'.accounts.refreshTokens.find?
      (fun _ t => t.tokenHash = env.sha256Hex raw') = some (rid', t'))
    (hfamily : t'.familyId = t.familyId) (now' : Time) (r' : Drawn) (pair : TokenPair env)
    (a' : Accounts env.aes) :
    AuthService.refresh env now' r' raw' w'.accounts ≠ .ok (.ok pair, a') := by
  have htokens : TokensOk w.accounts w.drawn := hrun.tokensOk hstart
  have hchange : Change env now x w.accounts tokens a₁ := Request.change hok
  obtain ⟨y, hy, hdrawn⟩ := htokens.family rid t hrow
  -- Right after the ban every token of the family is revoked: its rows are all the user's.
  have hfirst : Dead (w.serve now x).accounts fun u => u.familyId = y.familyId := by
    rw [World.serve_accounts hok]
    intro rid₂ t₂ hrow₂ heq
    cases hchange.row hrow₂ with
    -- A row that was there before: one owner to a family, so the ban revoked it.
    | kept s hs hk =>
      have howner : s.userId = t.userId := by
        apply htokens.owner rid₂ rid s t hs hrow
        rw [← hk.familyId, heq, hdrawn]
      exact hchange.dead_of_ban hban hrow₂ (hk.userId.trans (howner.trans huser))
    -- A ban issues no token.
    | issued r j family hdrawn' =>
      rw [x.drawn_of_ban (by simp [hban])] at hdrawn'
      cases hdrawn'
  -- A dead family stays dead, whatever the run does next.
  have hlater := hafter.dead (settled_family (World.mem_serve hy)) hfirst
  apply not_exchanged_of_dead hlater
  intro rid'' t'' hfound''
  obtain ⟨-, rfl⟩ := Prod.mk.inj (Option.some.inj (hfound'.symm.trans hfound''))
  exact hfamily.trans hdrawn.symm

end Runs

/-! ## A customer signs up and exchanges the first token -/

namespace Sample

open Giftly.Sample (accountEnv noAccounts)

/-- Nobody has signed up yet. -/
def start : World accountEnv where
  accounts := noAccounts
  keys := ⟨fun _ => none, fun _ => none⟩
  now := 0
  handed := []
  loggedOut := []
  drawn := []

/-- Nobody has signed up at the start. -/
theorem start_start : start.Start := ⟨rfl, fun _ => rfl, fun _ => rfl, rfl, rfl⟩

/-- A customer signs up under a phone, with the token of the phone. -/
def signUp : Request accountEnv :=
  .register ⟨1, ['a'], 1, 1⟩ ⟨7, 8, [], []⟩ (.registration ['5'] 600)
    { role := .customer, fullName := none, email := none, dob := none, city := none
      nationalId := none, passportId := none }

/-- The customer has signed up. -/
def signedUp : World accountEnv := start.serve 10 signUp

/-- The customer exchanges the first refresh token. -/
def exchange : Request accountEnv := .refresh ⟨2, ['b'], 2, 2⟩ ['a']

/-- Somebody presents the first refresh token. -/
def replay : Request accountEnv := .refresh ⟨3, ['c'], 3, 3⟩ ['a']

/-- An administrator bans the customer, or lifts the ban. -/
def setBanned (banned : Bool) : Request accountEnv := .setUserBanned 7 banned

/-- The sign-up is a run from the start. -/
theorem run_signedUp : World.Run start signedUp := by
  apply World.Run.serve .refl 10 signUp (by decide)
  intro r _ x hx
  cases hx

/-- The values of the exchange are drawn for the first time. -/
theorem fresh_exchange : Fresh accountEnv signedUp.drawn ⟨2, ['b'], 2, 2⟩ := by
  unfold Fresh
  decide

/-- The exchange goes on with the run. -/
theorem run_exchanged : World.Run start (signedUp.serve 20 exchange) := by
  apply World.Run.serve run_signedUp 20 exchange (by decide)
  intro r hr
  obtain rfl := Option.some.inj hr
  exact fresh_exchange

/-- A computation gives a value when its projection does. -/
theorem exists_of_map {α β γ : Type} {x : Except Err (Except Err α × β)} {f : α → γ} {c : γ}
    (h : (x.toOption.bind fun p => p.1.toOption.map f) = some c) : ∃ a b, x = .ok (.ok a, b) := by
  obtain e | ⟨e | a, b⟩ := x
  · cases h
  · cases h
  · exact ⟨a, b, rfl⟩

/-- The exchange of the first refresh token passes. -/
theorem exchange_passes : ∃ pair a', AuthService.refresh accountEnv 20 ⟨2, ['b'], 2, 2⟩ ['a']
    signedUp.accounts = .ok (.ok pair, a') :=
  exists_of_map (f := TokenPair.refreshToken) (c := ['b']) (by decide)

end Sample

/-- After the exchange the new token is the only one that is alive. -/
theorem live_token_unique_exchanged :
    (∀ rid₁ rid₂ t₁ t₂,
      (Sample.signedUp.serve 20 Sample.exchange).accounts.refreshTokens.get? rid₁ = some t₁ →
      (Sample.signedUp.serve 20 Sample.exchange).accounts.refreshTokens.get? rid₂ = some t₂ →
      t₁.familyId = t₂.familyId → t₁.Live → t₂.Live → rid₁ = rid₂) ∧
    ∀ rid t, (Sample.signedUp.serve 20 Sample.exchange).accounts.refreshTokens.get? rid = some t →
      t.Live → ∃ u, (Sample.signedUp.serve 20 Sample.exchange).accounts.users.get? t.userId = some u ∧
        u.status ≠ .banned :=
  live_token_unique Sample.start_start Sample.run_exchanged

/-- The first token is exchanged, and then no more. -/
theorem exchanged_once_signedUp :
    (∃ pair a', AuthService.refresh Giftly.Sample.accountEnv 20 ⟨2, ['b'], 2, 2⟩ ['a']
      Sample.signedUp.accounts = .ok (.ok pair, a')) ∧
    ¬∃ now r pair a', AuthService.refresh Giftly.Sample.accountEnv now r ['a']
      (Sample.signedUp.serve 20 Sample.exchange).accounts = .ok (.ok pair, a') := by
  obtain ⟨pair, a', hok⟩ := Sample.exchange_passes
  refine ⟨⟨pair, a', hok⟩, ?_⟩
  rintro ⟨now', r', pair', a'', hagain⟩
  exact exchanged_once Sample.start_start Sample.run_signedUp Sample.fresh_exchange hok .refl now' r'
    pair' a'' hagain

/-- The first token is presented once more: the token that it was exchanged for is dead. -/
theorem replay_ends_family_exchanged :
    (((Sample.signedUp.serve 20 Sample.exchange).serve 30 Sample.replay).accounts.refreshTokens.get?
      2).isSome = true ∧
    ¬∃ now r pair a', AuthService.refresh Giftly.Sample.accountEnv now r ['b']
      ((Sample.signedUp.serve 20 Sample.exchange).serve 30 Sample.replay).accounts =
      .ok (.ok pair, a') := by
  refine ⟨rfl, ?_⟩
  rintro ⟨now', r', pair', a'', hagain⟩
  refine replay_ends_family Sample.start_start Sample.run_exchanged
    (show _ = some (1, { refreshRow Giftly.Sample.accountEnv 10 ⟨1, ['a'], 1, 1⟩ 7 1 with
      usedAt := some 20 }) from rfl) (by simp [RefreshToken.Live]) .refl
    (show _ = some (2, (refreshRow Giftly.Sample.accountEnv 20 ⟨2, ['b'], 2, 2⟩ 7 1).revoked 30)
      from rfl) rfl now' r' pair' a'' hagain

/-- The customer is banned and the ban is lifted: the first token stays dead. -/
theorem ban_ends_tokens_lifted :
    (((Sample.signedUp.serve 30 (Sample.setBanned true)).serve 40
      (Sample.setBanned false)).accounts.refreshTokens.get? 1).isSome = true ∧
    ¬∃ now r pair a', AuthService.refresh Giftly.Sample.accountEnv now r ['a']
      ((Sample.signedUp.serve 30 (Sample.setBanned true)).serve 40
        (Sample.setBanned false)).accounts = .ok (.ok pair, a') := by
  refine ⟨rfl, ?_⟩
  rintro ⟨now', r', pair', a'', hagain⟩
  have hlifted : World.Run (Sample.signedUp.serve 30 (Sample.setBanned true))
      ((Sample.signedUp.serve 30 (Sample.setBanned true)).serve 40 (Sample.setBanned false)) := by
    apply World.Run.serve .refl 40 (Sample.setBanned false) (by decide)
    intro r hr
    cases hr
  exact ban_ends_tokens Sample.start_start Sample.run_signedUp rfl
    (show (Sample.setBanned true).handle 30 Sample.signedUp.accounts = .ok ([], _) from rfl) hlifted
    (show Sample.signedUp.accounts.refreshTokens.get? 1 = some
      (refreshRow Giftly.Sample.accountEnv 10 ⟨1, ['a'], 1, 1⟩ 7 1) from rfl) rfl
    (show _ = some (1, (refreshRow Giftly.Sample.accountEnv 10 ⟨1, ['a'], 1, 1⟩ 7 1).revoked 30)
      from rfl) rfl now' r' pair' a'' hagain

end Access

end Giftly
