import Giftly.Accounts.RefreshTokens

/-!
# Access tokens over a run

An access token carries the role of its account and cannot be taken back: two keys of Redis stand
between it and a request. `AccessOk` says what those keys are worth: the key of a token that was logged
out, and that of an account that is banned, outlive the tokens that they are for, and there is no key
else. So `require_auth` lets a token through exactly when it is not expired, was not logged out and its
account is not banned, although it reads none of the tables.
-/

namespace Giftly

open Store (Cell)

/-- The payload of an access token. -/
def Jwt.AccessClaims.payload (c : Jwt.AccessClaims) : Claims := .access c.sub c.role c.jti c.exp

/-- Access tokens with one payload have the same claims. -/
theorem Jwt.AccessClaims.payload_injective : Function.Injective Jwt.AccessClaims.payload := by
  rintro ⟨⟩ ⟨⟩ h
  obtain ⟨rfl, rfl, rfl, rfl⟩ := Claims.access.inj h
  rfl

/-- Tokens of different payloads are different. -/
theorem Jwt.encode_injective (j : Jwt) : Function.Injective j.encode := by
  intro c c' h
  -- both are decoded at a time at which neither is expired
  have hnow : ∀ x : Claims, min c.exp c'.exp ≤ x.exp → min c.exp c'.exp - 1 < x.exp :=
    fun x hx => Int.sub_one_lt_of_le hx
  have hc := j.decode_encode (min c.exp c'.exp - 1) c
  have hc' := j.decode_encode (min c.exp c'.exp - 1) c'
  rw [if_pos (hnow c (min_le_left _ _))] at hc
  rw [if_pos (hnow c' (min_le_right _ _)), ← h, hc] at hc'
  exact Option.some.inj hc'

/-- What `decode_access_token` accepts. -/
theorem Jwt.decodeAccessToken_eq_ok {j : Jwt} {now : Time} {token : j.Token}
    {c : Jwt.AccessClaims} :
    j.decodeAccessToken now token = .ok c ↔ j.decode now token = some c.payload := by
  unfold decodeAccessToken AccessClaims.payload
  obtain ⟨sub, role, jti, exp⟩ := c
  split
  · rename_i h
    simp [h]
  · rename_i h
    simp only [reduceCtorEq, false_iff]
    exact fun hsome => h sub role jti exp hsome

namespace Access

variable {env : AccountEnv}

/-- An access token with these claims was handed out. -/
def Handed (w : World env) (c : Jwt.AccessClaims) : Prop := env.jwt.encode c.payload ∈ w.handed

/-- A key that holds at least until a time. -/
def HoldsUntil (key : Cell Unit) (t : Time) : Prop := ∃ d, key = some ⟨(), some d⟩ ∧ t ≤ d

/-- What holds of the access tokens and the two kinds of keys at all times. -/
structure AccessOk (w : World env) : Prop where
  encoded : ∀ t ∈ w.handed, ∃ c, t = env.jwt.encode c
  exp : ∀ c, Handed w c → c.exp ≤ w.now + env.settings.jwtAccessTtlMinutes * 60
  drawn : ∀ c, Handed w c → ∃ r ∈ w.drawn, r.jti = c.jti
  role : ∀ c, Handed w c → ∃ status, w.accounts.standing c.sub = some ⟨c.role, status⟩
  unique : ∀ c c', Handed w c → Handed w c' → c.jti = c'.jti → c = c'
  outDrawn : ∀ jti ∈ w.loggedOut, ∃ r ∈ w.drawn, r.jti = jti
  out : ∀ c, Handed w c → c.jti ∈ w.loggedOut → HoldsUntil (w.keys.denylist c.jti) c.exp
  notOut : ∀ jti, jti ∉ w.loggedOut → w.keys.denylist jti = none
  suspended : ∀ c, Handed w c → w.accounts.standing c.sub = some ⟨c.role, .banned⟩ →
    HoldsUntil (w.keys.banned c.sub) c.exp
  notSuspended : ∀ id, (∀ role, w.accounts.standing id ≠ some ⟨role, .banned⟩) →
    w.keys.banned id = none

/-- A key that holds until a token expires is there while the token is valid. -/
theorem HoldsUntil.get_isSome {key : Cell Unit} {t now : Time} (h : HoldsUntil key t)
    (hnow : now < t) : (key.get now).isSome := by
  obtain ⟨d, rfl, hd⟩ := h
  have halive : Cell.Alive ⟨(), some d⟩ now := by
    intro t' ht'
    obtain rfl := Option.some.inj ht'
    exact lt_of_lt_of_le hnow hd
  rw [Cell.get_of_some rfl halive]
  rfl

/-- A genuine token that is decoded was handed out, and is not expired. -/
theorem AccessOk.handed_of_decode {w : World env} (hw : AccessOk w) {token : env.jwt.Token}
    (hgenuine : w.Genuine token) {now : Time} {c : Jwt.AccessClaims}
    (h : env.jwt.decode now token = some c.payload) : Handed w c ∧ now < c.exp := by
  obtain ⟨t, ht, hdecode⟩ := hgenuine now _ h
  obtain ⟨c', rfl⟩ := hw.encoded t ht
  rw [env.jwt.decode_encode] at hdecode
  split_ifs at hdecode with hexp
  obtain rfl := Option.some.inj hdecode
  exact ⟨ht, hexp⟩

/-- The account of an access token is banned exactly when its key is there. -/
theorem AccessOk.banned_isSome {w : World env} (hw : AccessOk w) {c : Jwt.AccessClaims}
    (hc : Handed w c) {now : Time} (hnow : now < c.exp) {status : UserStatus}
    (hs : w.accounts.standing c.sub = some ⟨c.role, status⟩) :
    ((w.keys.banned c.sub).get now).isSome ↔ status = .banned := by
  constructor
  · intro hsome
    by_contra hne
    rw [hw.notSuspended c.sub] at hsome
    · cases hsome
    · intro role heq
      rw [hs] at heq
      exact hne (congrArg Standing.status (Option.some.inj heq))
  · rintro rfl
    exact (hw.suspended c hc hs).get_isSome hnow

/-- The `jti` of an access token was logged out exactly when its key is there. -/
theorem AccessOk.denylist_isSome {w : World env} (hw : AccessOk w) {c : Jwt.AccessClaims}
    (hc : Handed w c) {now : Time} (hnow : now < c.exp) :
    ((w.keys.denylist c.jti).get now).isSome ↔ c.jti ∈ w.loggedOut := by
  constructor
  · intro hsome
    by_contra hnot
    rw [hw.notOut c.jti hnot] at hsome
    cases hsome
  · intro hout
    exact (hw.out c hc hout).get_isSome hnow

/-- `require_auth` on a genuine token, in a world that is in order. -/
theorem AccessOk.requireAuth_eq_ok {w : World env} (hw : AccessOk w) {token : env.jwt.Token}
    (hgenuine : w.Genuine token) (now : Time) (actor : Actor) :
    requireAuth env w.keys now (some token) = .ok actor ↔ ∃ exp status,
      env.jwt.decode now token = some (.access actor.id actor.role actor.jti exp) ∧
      actor.jti ∉ w.loggedOut ∧
      w.accounts.standing actor.id = some ⟨actor.role, status⟩ ∧ status ≠ .banned := by
  unfold requireAuth
  dsimp only
  cases hdecode : env.jwt.decodeAccessToken now token with
  -- The token does not decode, so the right side fails at its first part.
  | error e =>
    simp only [reduceCtorEq, false_iff]
    rintro ⟨exp, status, hsome, -⟩
    have hok := Jwt.decodeAccessToken_eq_ok (c := ⟨actor.id, actor.role, actor.jti, exp⟩).mpr hsome
    rw [hdecode] at hok
    cases hok
  | ok c =>
    have hsome : env.jwt.decode now token = some c.payload :=
      Jwt.decodeAccessToken_eq_ok.mp hdecode
    obtain ⟨hhanded, hexp⟩ := hw.handed_of_decode hgenuine hsome
    obtain ⟨status, hstatus⟩ := hw.role c hhanded
    have hclaims : ∀ exp,
        env.jwt.decode now token = some (.access actor.id actor.role actor.jti exp) →
        c.sub = actor.id ∧ c.role = actor.role ∧ c.jti = actor.jti ∧ c.exp = exp := by
      intro exp hsome'
      exact Claims.access.inj (Option.some.inj (hsome.symm.trans hsome'))
    dsimp only
    -- The three outcomes of the two key checks, each read back into `loggedOut` and the table.
    split_ifs with hdenied hsuspended
    · -- The token was logged out.
      rw [hw.denylist_isSome hhanded hexp] at hdenied
      simp only [false_iff]
      rintro ⟨exp, status', hsome', hnot, -⟩
      obtain ⟨-, -, hjti, -⟩ := hclaims exp hsome'
      exact hnot (hjti ▸ hdenied)
    · -- Its account is banned.
      rw [hw.banned_isSome hhanded hexp hstatus] at hsuspended
      simp only [false_iff]
      rintro ⟨exp, status', hsome', -, hstatus', hne⟩
      obtain ⟨hsub, -, -, -⟩ := hclaims exp hsome'
      rw [← hsub, hstatus] at hstatus'
      have hsame : status = status' := congrArg Standing.status (Option.some.inj hstatus')
      exact hne (hsame.symm.trans hsuspended)
    · rw [hw.denylist_isSome hhanded hexp] at hdenied
      rw [hw.banned_isSome hhanded hexp hstatus] at hsuspended
      constructor
      · intro hok
        obtain rfl := Except.ok.inj hok
        exact ⟨c.exp, status, hsome, hdenied, hstatus, hsuspended⟩
      · rintro ⟨exp, status', hsome', -⟩
        obtain ⟨hsub, hrole, hjti, -⟩ := hclaims exp hsome'
        rw [hsub, hrole, hjti]

/-! ## Runs -/

section Step

variable {w : World env} {now : Time} {x : Request env}

variable {a' : Accounts env.aes} {tokens : List env.jwt.Token}

/-- What a request hands out. -/
theorem Change.tokens_cases {a : Accounts env.aes} (h : Change env now x a tokens a') :
    tokens = [] ∨ (∃ phone, tokens = [env.jwt.createRegistrationToken now phone]) ∨
      ∃ r id s, x.drawn = some r ∧ x.ban = none ∧ a'.standing id = some s ∧ s.status ≠ .banned ∧
        tokens = [env.jwt.createAccessToken env.settings now r.jti id s.role] := by
  cases h with
  | quiet | joined | verified | replayed | banned | unbanned | purged => exact .inl rfl
  | invited phone => exact .inr (.inl ⟨phone, rfl⟩)
  | signedIn r id s hdrawn hban _ _ hid hstatus hissued =>
    rw [← Accounts.standing_congr hissued.users] at hid
    exact .inr (.inr ⟨r, id, s, hdrawn, hban, hid, hstatus, rfl⟩)
  | rotated r _ t s hdrawn hban _ _ _ _ hid hstatus hissued =>
    rw [← Accounts.standing_congr hissued.users] at hid
    exact .inr (.inr ⟨r, t.userId, s, hdrawn, hban, hid, hstatus, rfl⟩)

/-- The claims of an access token that a request hands out. -/
theorem Change.handed {a : Accounts env.aes} (h : Change env now x a tokens a')
    {c : Jwt.AccessClaims} (hc : env.jwt.encode c.payload ∈ tokens) :
    ∃ r s, x.drawn = some r ∧ x.ban = none ∧ a'.standing c.sub = some s ∧ s.status ≠ .banned ∧
      c.role = s.role ∧ c.jti = r.jti ∧ c.exp = now + env.settings.jwtAccessTtlMinutes * 60 := by
  obtain rfl | ⟨phone, rfl⟩ | ⟨r, id, s, hdrawn, hban, hid, hstatus, rfl⟩ := h.tokens_cases
  · cases hc
  · have heq := env.jwt.encode_injective (List.mem_singleton.mp hc)
    cases heq
  · obtain ⟨rfl, hrole, hjti, hexp⟩ :=
      Claims.access.inj (env.jwt.encode_injective (List.mem_singleton.mp hc))
    exact ⟨r, s, hdrawn, hban, hid, hstatus, hrole, hjti, hexp⟩

/-- An account keeps its role. -/
theorem Change.role_standing {a : Accounts env.aes} (h : Change env now x a tokens a') {id : Id}
    {role : UserRole} {status : UserStatus} (hs : a.standing id = some ⟨role, status⟩) :
    ∃ status', a'.standing id = some ⟨role, status'⟩ := by
  obtain ⟨-, hkeeps⟩ | ⟨j, role', status', b, -, hold, hnew⟩ := h.standing_cases
  · exact hkeeps.role id _ hs
  · rw [hnew]
    by_cases hj : id = j
    · subst hj
      have hsame : role' = role := congrArg Standing.role (Option.some.inj (hold.symm.trans hs))
      rw [Function.update_self, hsame]
      exact ⟨_, rfl⟩
    · rw [Function.update_of_ne hj]
      exact ⟨status, hs⟩

/-- A request hands out one token at most. -/
theorem Change.tokens_eq {a : Accounts env.aes} (h : Change env now x a tokens a')
    {t t' : env.jwt.Token} (ht : t ∈ tokens) (ht' : t' ∈ tokens) : t = t' := by
  obtain rfl | ⟨phone, rfl⟩ | ⟨r, id, s, -, -, -, -, rfl⟩ := h.tokens_cases
  · cases ht
  · rw [List.mem_singleton.mp ht, List.mem_singleton.mp ht']
  · rw [List.mem_singleton.mp ht, List.mem_singleton.mp ht']

/-- A ban's flag leaves the denied tokens. -/
@[simp]
theorem Keys.flag_denylist (k : Keys) (s : AuthSettings) (b : Option (Id × Bool)) :
    (k.flag s now b).denylist = k.denylist := by
  obtain _ | ⟨id, _ | _⟩ := b <;> rfl

/-- A request that passes keeps the keys of the banned accounts in order. -/
theorem AccessOk.flag (hw : AccessOk w) (h : Change env now x w.accounts tokens a')
    (hnow : w.now ≤ now) :
    (∀ c, Handed w c → a'.standing c.sub = some ⟨c.role, .banned⟩ →
      HoldsUntil ((w.keys.flag env.settings now x.ban).banned c.sub) c.exp) ∧
    ∀ id, (∀ role, a'.standing id ≠ some ⟨role, .banned⟩) →
      (w.keys.flag env.settings now x.ban).banned id = none := by
  obtain ⟨hban, hkeeps⟩ | ⟨j, role, status, b, hban, hold, hnew⟩ := h.standing_cases
  · -- Nobody's ban changes, and neither do the keys.
    rw [hban]
    constructor
    · intro c hc hs
      exact hw.suspended c hc ((hkeeps.banned c.sub c.role).mp hs)
    · intro id hid
      exact hw.notSuspended id fun role hs => hid role ((hkeeps.banned id role).mpr hs)
  · rw [hban]
    obtain _ | _ := b
    · -- the ban of `j` is lifted, and its key is deleted
      constructor
      · intro c hc hs
        by_cases hj : c.sub = j
        · rw [hnew, hj, Function.update_self] at hs
          exact absurd (congrArg Standing.status (Option.some.inj hs)) active_ne_banned
        · rw [hnew, Function.update_of_ne hj] at hs
          change HoldsUntil (Function.update w.keys.banned j none c.sub) c.exp
          rw [Function.update_of_ne hj]
          exact hw.suspended c hc hs
      · intro id hid
        change Function.update w.keys.banned j none id = none
        by_cases hj : id = j
        · rw [hj, Function.update_self]
        · rw [Function.update_of_ne hj]
          rw [hnew, Function.update_of_ne hj] at hid
          exact hw.notSuspended id hid
    · -- `j` is banned: its key outlives the tokens that were handed out
      constructor
      · intro c hc hs
        change HoldsUntil (Function.update w.keys.banned j (.set () now _) c.sub) c.exp
        by_cases hj : c.sub = j
        · rw [hj, Function.update_self]
          have hlater : ∀ e t₀ t₁ ttl : ℤ, e ≤ t₀ + ttl → t₀ ≤ t₁ → e ≤ t₁ + (ttl + 60) := by
            omega
          refine ⟨_, rfl, ?_⟩
          push_cast
          exact hlater c.exp w.now now _ (hw.exp c hc) hnow
        · rw [hnew, Function.update_of_ne hj] at hs
          rw [Function.update_of_ne hj]
          exact hw.suspended c hc hs
      · intro id hid
        change Function.update w.keys.banned j (.set () now _) id = none
        by_cases hj : id = j
        · rw [hnew, hj, Function.update_self] at hid
          exact absurd rfl (hid role)
        · rw [Function.update_of_ne hj]
          rw [hnew, Function.update_of_ne hj] at hid
          exact hw.notSuspended id hid

/-- A request that passes keeps the access tokens in order. -/
theorem AccessOk.change (hw : AccessOk w) (h : Change env now x w.accounts tokens a')
    (hnow : w.now ≤ now) (hfresh : ∀ r ∈ x.drawn, Fresh env w.drawn r) :
    AccessOk { w with
      accounts := a'
      keys := w.keys.flag env.settings now x.ban
      now
      handed := w.handed ++ tokens
      drawn := w.drawn ++ x.drawn.toList } := by
  obtain ⟨hsuspended, hnotSuspended⟩ := hw.flag h hnow
  have hcases : ∀ c : Jwt.AccessClaims, env.jwt.encode c.payload ∈ w.handed ++ tokens →
      Handed w c ∨ env.jwt.encode c.payload ∈ tokens := fun c hc => List.mem_append.mp hc
  -- a token that is handed out now has a `jti` of its own
  have hjti : ∀ c : Jwt.AccessClaims, env.jwt.encode c.payload ∈ tokens → ∀ r ∈ w.drawn, r.jti ≠ c.jti := by
    intro c hc r hr
    obtain ⟨r', s, hdrawn, -, -, -, -, hjti, -⟩ := h.handed hc
    rw [hjti]
    exact (hfresh r' hdrawn r hr).1
  constructor
  · intro t ht
    obtain ht | ht := List.mem_append.mp ht
    · exact hw.encoded t ht
    · obtain rfl | ⟨phone, rfl⟩ | ⟨r, id, s, -, -, -, -, rfl⟩ := h.tokens_cases
      · cases ht
      · exact ⟨_, List.mem_singleton.mp ht⟩
      · exact ⟨_, List.mem_singleton.mp ht⟩
  · intro c hc
    obtain hc | hc := hcases c hc
    · exact (hw.exp c hc).trans (Int.add_le_add_right hnow _)
    · obtain ⟨r, s, -, -, -, -, -, -, hexp⟩ := h.handed hc
      exact hexp.le
  · intro c hc
    obtain hc | hc := hcases c hc
    · obtain ⟨r, hr, heq⟩ := hw.drawn c hc
      exact ⟨r, List.mem_append_left _ hr, heq⟩
    · obtain ⟨r, s, hdrawn, -, -, -, -, heq, -⟩ := h.handed hc
      exact ⟨r, by simp [hdrawn], heq.symm⟩
  · intro c hc
    obtain hc | hc := hcases c hc
    · obtain ⟨st, hst⟩ := hw.role c hc
      exact h.role_standing hst
    · obtain ⟨r, s, -, -, hs, -, hrole, -, -⟩ := h.handed hc
      exact ⟨s.status, by rw [hrole]; exact hs⟩
  · intro c c' hc hc' heq
    obtain hc | hc := hcases c hc <;> obtain hc' | hc' := hcases c' hc'
    · exact hw.unique c c' hc hc' heq
    · obtain ⟨r, hr, hdrawn⟩ := hw.drawn c hc
      exact absurd (hdrawn.trans heq) (hjti c' hc' r hr)
    · obtain ⟨r, hr, hdrawn⟩ := hw.drawn c' hc'
      exact absurd (hdrawn.trans heq.symm) (hjti c hc r hr)
    · have hpayload := env.jwt.encode_injective (h.tokens_eq hc hc')
      exact Jwt.AccessClaims.payload_injective hpayload
  · intro jti hout
    obtain ⟨r, hr, heq⟩ := hw.outDrawn jti hout
    exact ⟨r, List.mem_append_left _ hr, heq⟩
  · intro c hc hout
    rw [Keys.flag_denylist]
    obtain hc | hc := hcases c hc
    · exact hw.out c hc hout
    · obtain ⟨r, hr, heq⟩ := hw.outDrawn c.jti hout
      exact absurd heq (hjti c hc r hr)
  · intro jti hnot
    rw [Keys.flag_denylist]
    exact hw.notOut jti hnot
  · intro c hc hs
    obtain hc | hc := hcases c hc
    · exact hsuspended c hc hs
    · obtain ⟨r, s, -, -, hs', hstatus, -, -, -⟩ := h.handed hc
      obtain rfl := Option.some.inj (hs.symm.trans hs')
      exact absurd rfl hstatus
  · exact hnotSuspended

/-- A request that raises, or the passing of time. -/
theorem AccessOk.later (hw : AccessOk w) (hnow : w.now ≤ now) (more : List Drawn) :
    AccessOk { w with now, drawn := w.drawn ++ more } where
  encoded := hw.encoded
  exp c hc := (hw.exp c hc).trans (Int.add_le_add_right hnow _)
  drawn c hc := by
    obtain ⟨r, hr, heq⟩ := hw.drawn c hc
    exact ⟨r, List.mem_append_left _ hr, heq⟩
  role := hw.role
  unique := hw.unique
  outDrawn jti hout := by
    obtain ⟨r, hr, heq⟩ := hw.outDrawn jti hout
    exact ⟨r, List.mem_append_left _ hr, heq⟩
  out := hw.out
  notOut := hw.notOut
  suspended := hw.suspended
  notSuspended := hw.notSuspended

/-- A logout keeps the access tokens in order. -/
theorem AccessOk.logout (hw : AccessOk w) (hnow : w.now ≤ now) {token : env.jwt.Token}
    (hgenuine : w.Genuine token) : AccessOk (w.serveLogout now token) := by
  have hlater : AccessOk { w with now } := by
    simpa using hw.later hnow []
  unfold World.serveLogout
  split
  · rename_i actor c hactor hdecode
    obtain ⟨hhanded, hexp⟩ :=
      hw.handed_of_decode hgenuine (Jwt.decodeAccessToken_eq_ok.mp hdecode)
    have hjti : actor.jti = c.jti := by
      obtain ⟨exp, status, hsome, -⟩ := (hw.requireAuth_eq_ok hgenuine now actor).mp hactor
      rw [Jwt.decodeAccessToken_eq_ok.mp hdecode] at hsome
      exact (Claims.access.inj (Option.some.inj hsome)).2.2.1.symm
    rw [hjti]
    -- the key lives for the seconds that the token has left, and one at least
    have hkey : HoldsUntil ((w.keys.logout now c).denylist c.jti) c.exp := by
      have hlife : ∀ e t : ℤ, e ≤ t + ((max (e - t) 1).toNat : ℤ) := by
        intro e t
        omega
      refine ⟨now + ((max (c.exp - now) 1).toNat : ℤ), ?_, hlife c.exp now⟩
      simp [Keys.logout, Cell.set]
    have hother : ∀ jti, jti ≠ c.jti →
        (w.keys.logout now c).denylist jti = w.keys.denylist jti := by
      intro jti hne
      simp [Keys.logout, Function.update_of_ne hne]
    refine { hlater with outDrawn := ?_, out := ?_, notOut := ?_ }
    · intro jti hout
      obtain rfl | hout := List.mem_cons.mp hout
      · exact hw.drawn c hhanded
      · exact hw.outDrawn jti hout
    · intro c' hc' hout
      by_cases hsame : c'.jti = c.jti
      · rw [hw.unique c' c hc' hhanded hsame]
        exact hkey
      · have hout' : c'.jti ∈ w.loggedOut := (List.mem_cons.mp hout).resolve_left hsame
        change HoldsUntil ((w.keys.logout now c).denylist c'.jti) c'.exp
        rw [hother c'.jti hsame]
        exact hw.out c' hc' hout'
    · intro jti hnot
      rw [List.mem_cons, not_or] at hnot
      exact (hother jti hnot.1).trans (hw.notOut jti hnot.2)
  · exact hlater

end Step

variable {w₀ w : World env}

/-- Over a run the clock does not go back, and the access tokens are in order. -/
theorem World.Run.accessOk (hstart : w₀.Start) (hrun : World.Run w₀ w) : AccessOk w := by
  induction hrun with
  -- At the start nothing was handed out, and Redis is empty.
  | refl =>
    have hnone : ∀ c, ¬Handed w₀ c := by
      intro c hc
      rw [Handed, hstart.handed] at hc
      cases hc
    have hout : ∀ jti, jti ∉ w₀.loggedOut := by
      intro jti
      rw [hstart.loggedOut]
      exact List.not_mem_nil
    refine ⟨?_, fun c hc => absurd hc (hnone c), fun c hc => absurd hc (hnone c),
      fun c hc => absurd hc (hnone c), fun c _ hc => absurd hc (hnone c),
      fun jti h => absurd h (hout jti), fun c hc => absurd hc (hnone c),
      fun jti _ => hstart.denylist jti, fun c hc => absurd hc (hnone c),
      fun id _ => hstart.banned id⟩
    intro t ht
    rw [hstart.handed] at ht
    cases ht
  | @serve w hrun now x hnow hfresh ih =>
    -- A request that fails changes only the clock.
    obtain ⟨tokens, a', hchange, heq⟩ | heq := w.serve_cases now x
    · rw [heq]
      exact ih.change hchange hnow hfresh
    · rw [heq]
      exact ih.later hnow _
  | @logout w hrun now token hnow hgenuine ih => exact ih.logout hnow hgenuine

/-- A genuine token passes `require_auth`, and then `require_role`, exactly when it is an access token
that is not expired, it was not logged out, and its account is there, not banned and of an allowed
role. -/
theorem requireRole_iff (hstart : w₀.Start) (hrun : World.Run w₀ w) {token : env.jwt.Token}
    (hgenuine : w.Genuine token) (now : Time) (allowed : List UserRole) (actor : Actor) :
    (requireAuth env w.keys now (some token) >>= requireRole allowed) = .ok actor ↔
      (∃ exp, env.jwt.decode now token = some (.access actor.id actor.role actor.jti exp)) ∧
      actor.jti ∉ w.loggedOut ∧ actor.role ∈ allowed ∧
      ∃ u, w.accounts.users.get? actor.id = some u ∧ u.role = actor.role ∧ u.status ≠ .banned := by
  have hauth := (hrun.accessOk hstart).requireAuth_eq_ok hgenuine now
  constructor
  · -- What passed both checks was decoded, is not logged out, and has a standing.
    intro h
    obtain ⟨actor', hactor, hrole⟩ := Store.exists_of_bind_eq_ok h
    unfold requireRole at hrole
    split_ifs at hrole with hmem
    obtain rfl := Except.ok.inj hrole
    obtain ⟨exp, status, hdecode, hnot, hs, hne⟩ := (hauth actor').mp hactor
    obtain ⟨u, hu, hrole, rfl⟩ := Accounts.standing_eq_some.mp hs
    exact ⟨⟨exp, hdecode⟩, hnot, hmem, u, hu, hrole, hne⟩
  · -- The standing that the token needs is that of the account's row.
    rintro ⟨⟨exp, hdecode⟩, hnot, hmem, u, hu, hrole, hne⟩
    have hs : w.accounts.standing actor.id = some ⟨actor.role, u.status⟩ :=
      Accounts.standing_eq_some.mpr ⟨u, hu, hrole, rfl⟩
    rw [(hauth actor).mpr ⟨exp, u.status, hdecode, hnot, hs, hne⟩]
    exact if_pos hmem

/-- A customer who has signed up passes with the token that was handed out. -/
theorem requireRole_iff_signedUp :
    (requireAuth Giftly.Sample.accountEnv Sample.signedUp.keys 20
      (some (.access 7 .customer 1 1810)) >>= requireRole [.customer]) = .ok ⟨7, .customer, 1⟩ := by
  have hhanded : Sample.signedUp.handed = [.access 7 .customer 1 1810] := rfl
  have hgenuine : Sample.signedUp.Genuine (.access 7 .customer 1 1810) := by
    intro now c hc
    exact ⟨.access 7 .customer 1 1810, hhanded ▸ List.mem_singleton_self _, hc⟩
  rw [requireRole_iff Sample.start_start Sample.run_signedUp hgenuine]
  exact ⟨⟨1810, rfl⟩, by decide, by decide, _, rfl, rfl, by decide⟩

end Access

end Giftly
