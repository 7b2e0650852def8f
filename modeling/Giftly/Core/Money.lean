import Giftly.Decimal

/-!
# Money primitives and the errors of the services

`core/money.py` and `core/exceptions.py`. A money amount is an integer number of halalas, the value
of a `Decimal` with exactly two decimals, and every amount is made one by `quantizeMoney`. A money
column is `NUMERIC(12, 2)`: it holds the amounts below `10 ^ 12` halalas in magnitude (`fitsMoney`),
and the database refuses others.
-/

namespace Giftly

/-- The constraints of the schema that the modelled statements can violate. -/
inductive Constraint
  | primaryKey
  | foreignKey
  | chkBalanceNonNegative
  | chkAmountNonZero
  | uqTransactionsIdempotency
  | chkDeliveryDateWindow
  | chkAmountsNonNegative
  | chkCourierRequiredAfterAssignment
  | uqConversationsOrder
  | chkInvoiceAmountsNonNegative
  | chkInvoiceTotalPositive
  | chkInvoiceNetMath
  | chkInvoiceTotalMath
  | chkInvoicePromoPairing
  | uqInvoicesOneActivePerOrder
  | chkItemQuantity
  | chkItemUnitPrice
  | chkItemTaxRate
  | chkItemLineMath
  | uqInvoiceItemPosition
  | chkIntentAmountPositive
  | chkIntentPurposeReference
  | uqPaymentIntentsStreampayLink
  | chkTopupBounds
  | uqDisputesOrder
  | chkRedemptionAmountPositive
  | uqPromoRedemptionInvoice
  | chkPromoUsageBounds
  | chkWithdrawalMin
  | uqWithdrawalsCourierIdempotency
  | uqUsersPhone
  | uqUsersEmail
  | uqWalletsUser
  | uqRefreshTokensHash
  | uqCourierIdentityFingerprint
  | chkIdentityPresent
  | uqAdminSessionsTokenHash
  deriving DecidableEq, Repr

/-- What a service raises: the domain errors with their messages, the errors of the ledger and of
the pricing engine, and the errors of the libraries that the services let through. -/
inductive Err
  | notFound (message : String)
  | forbidden (message : String)
  | unauthorized (message : String)
  | invalidStateTransition (message : String)
  | conflict (message : String)
  | orderAlreadyAssigned
  | validationDomain (message : String)
  | insufficientFunds
  /-- With the seconds after which to try again. -/
  | rateLimited (retryAfterSeconds : ℕ)
  | invalidWebhookSignature
  | paymentAmountMismatch
  | promoNotFound
  | promoInactive
  | promoNotStarted
  | promoExpired
  | promoMinOrderNotMet
  | promoUsageExceeded
  | promoUserLimitReached
  | ledgerImbalance (message : String)
  | pricingIntegrity (message : String)
  /-- `LookupError`: a system wallet is not seeded. -/
  | lookup
  /-- `KeyError`: a wallet id without a locked row. -/
  | key
  /-- `decimal.InvalidOperation`. -/
  | invalidOperation
  /-- `IntegrityError`: a violated constraint. -/
  | integrity (c : Constraint)
  /-- `DataError`: a number or a text that does not fit its column. -/
  | data
  /-- `StaleDataError`: an `UPDATE` of a row that is gone. -/
  | staleData
  | lockNotAcquired
  /-- `JwtError`: a token that does not decode to what it is used for. -/
  | jwt
  /-- `RAISE EXCEPTION` in a trigger of the database. -/
  | trigger (message : String)
  /-- The payment gateway's client raised. -/
  | gateway
  /-- `CryptoError`. -/
  | crypto (message : String)
  /-- `UnicodeDecodeError`: bytes that are no UTF-8. -/
  | unicodeDecode
  /-- `ValueError`, or a class below it that has no name here. -/
  | valueError
  /-- `TypeError`. -/
  | typeError
  /-- `AttributeError`. -/
  | attributeError
  /-- `OverflowError`. -/
  | overflow
  deriving DecidableEq, Repr

/-- `quantize_money`: a `Decimal` rounded half up to two decimals, as halalas. A result of more
than 28 digits is an invalid operation, and so is an infinity. Python returns a NaN for a NaN, and
the ledger's checks then raise on it; here it raises at once. -/
def quantizeMoney : Decimal → Except Err ℤ
  | .finite x =>
    match x.quantize (-2) with
    | some y => .ok y.coeff
    | none => .error .invalidOperation
  | _ => .error .invalidOperation

/-- `ZERO`, that is `0.00`. -/
abbrev zero : Dec := .cents 0

/-- `sum(xs, ZERO)`. -/
def sumDec (xs : List Dec) : Dec := xs.foldl .add zero

/-- `quantize_money` on a finite number, as a number again. -/
def quantizeDec (x : Dec) : Except Err Dec := (quantizeMoney (.finite x)).map .cents

/-- A money amount as a `Decimal` with two decimals. -/
abbrev money (n : ℤ) : Decimal := .finite (.cents n)

/-- The amounts that a `NUMERIC(12, 2)` column holds. -/
def fitsMoney (n : ℤ) : Bool := n.natAbs < 10 ^ 12

/-- A number written to a `NUMERIC(12, 2)` column: rounded half away from zero to two decimals. -/
def toMoneyColumn (x : Dec) : ℤ :=
  if -2 ≤ x.exp then x.scaled (-2) else Dec.divHalfUp x.coeff (-2 - x.exp).toNat

/-- Quantizing a rounded amount of halalas gives it back, or fails because it is too long. -/
theorem quantizeMoney_fix (n : ℤ) : quantizeMoney (.finite (Dec.cents n).fix) =
    if n.natAbs < Dec.limit then .ok n else .error .invalidOperation := by
  simp only [quantizeMoney, Dec.quantize_fix]
  split_ifs <;> rfl

/-- Quantizing an amount of halalas gives it back, or fails because it is too long. -/
theorem quantizeMoney_money (n : ℤ) : quantizeMoney (money n) =
    if n.natAbs < Dec.limit then .ok n else .error .invalidOperation := by
  simp only [quantizeMoney, Dec.quantize_cents]
  split_ifs <;> rfl

/-- A quantized amount of halalas is that amount. -/
theorem eq_of_quantizeMoney_fix {n m : ℤ} (h : quantizeMoney (.finite (Dec.cents n).fix) = .ok m) :
    m = n ∧ n.natAbs < Dec.limit := by
  rw [quantizeMoney_fix] at h
  split_ifs at h with hn
  exact ⟨(Except.ok.inj h).symm, hn⟩

/-- A quantized amount of halalas is that amount. -/
theorem eq_of_quantizeMoney_money {n m : ℤ} (h : quantizeMoney (money n) = .ok m) :
    m = n ∧ n.natAbs < Dec.limit := by
  rw [quantizeMoney_money] at h
  split_ifs at h with hn
  exact ⟨(Except.ok.inj h).symm, hn⟩

/-- A quantized difference that is clamped at zero. -/
theorem eq_of_quantizeMoney_max {n m : ℤ}
    (h : quantizeMoney (.finite (zero.max (Dec.cents n).fix)) = .ok m) : m = max 0 n := by
  unfold Dec.max at h
  rw [Dec.zero_lt_fix] at h
  split_ifs at h with hn
  · obtain ⟨rfl, -⟩ := eq_of_quantizeMoney_fix h
    rw [decide_eq_true_eq] at hn
    omega
  · obtain ⟨rfl, -⟩ := eq_of_quantizeMoney_money h
    rw [decide_eq_true_eq] at hn
    omega

/-- A quantized amount has at most 28 digits. -/
theorem natAbs_lt_of_quantizeMoney {x : Decimal} {n : ℤ} (h : quantizeMoney x = .ok n) :
    n.natAbs < Dec.limit := by
  unfold quantizeMoney at h
  split at h
  · split at h
    · rename_i y hy
      obtain rfl := Except.ok.inj h
      exact Dec.natAbs_lt_of_quantize hy
    · cases h
  · cases h

end Giftly
