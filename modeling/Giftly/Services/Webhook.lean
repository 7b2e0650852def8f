import Giftly.Core.Envelope
import Giftly.Core.Parsing
import Giftly.Json
import Giftly.Store.Outcome
import Giftly.Store.Program

/-!
# The front door of the webhook

`verify_webhook_signature` of the gateway's client and `_parse` of the payment service, which every
request to the webhook passes first. The keyed digest and `json.loads` are parameters, and so is how
the interpreter prints. A request is rejected cleanly unless its digest has a character outside of
ASCII, its body is a JSON document but no object, or its amount is too long a number
(`rejects_cleanly_iff`).
-/

namespace Giftly.Webhook

open Numerals (strip)
open Store (ok_bind)

variable {F : Type}

/-- What the front door uses from outside of the repository. -/
structure Gateway (F : Type) where
  /-- The digits of the HMAC of a message under the webhook's secret. -/
  hexdigest : Bytes → List (Fin 16)
  /-- `json.loads`; `none` is a `ValueError`. -/
  loads : Bytes → Option (Json F)
  printing : Printing F

/-- The value of a header, decoded from Latin-1. -/
abbrev Header := List (Fin 256)

/-- The string of a header. -/
def Header.text (h : Header) : PyStr := h.map fun c => ⟨c.val, by omega⟩

/-- `WebhookEvent`. -/
structure WebhookEvent where
  paymentLinkId : PyStr
  status : PyStr
  amount : Option SignedDec
  deriving DecidableEq

/-! ## The signature -/

/-- A part of the header as a key and a value. -/
def keyValue (part : PyStr) : Option (PyStr × PyStr) :=
  let part := strip part
  let key := part.takeWhile fun c => c ≠ codePoint '='
  match part.dropWhile fun c => c ≠ codePoint '=' with
  | _ :: value => if key ≠ [] ∧ value ≠ [] then some (key, value) else none
  | [] => none

/-- `_signature_parts`: the last values of `t` and of `v1`. -/
def signatureParts (signature : PyStr) : Option PyStr × Option PyStr :=
  let values := ((signature.splitOn (codePoint ',')).filterMap keyValue).reverse
  let get := fun key : String => (values.find? fun kv => kv.1 = py key).map Prod.snd
  (get "t", get "v1")

/-- A string has ASCII characters only. -/
def isAscii (s : PyStr) : Bool := s.all fun c => c.val < 128

/-- `hmac.compare_digest`. -/
def compareDigest (a b : PyStr) : Except Err Bool :=
  if isAscii a && isAscii b then .ok (a = b) else .error .typeError

/-- The message that is signed: the timestamp in UTF-8, a point, and the body. -/
def message (timestamp : PyStr) (rawBody : Bytes) : Bytes :=
  encodeUtf8 (timestamp.map fun c => Char.ofNat c.val) ++ 46 :: rawBody

/-- The digest that is expected. -/
def expectedDigest (g : Gateway F) (timestamp : PyStr) (rawBody : Bytes) : PyStr :=
  (g.hexdigest (message timestamp rawBody)).map fun d => codePoint (Nat.digitChar d.val)

/-- `verify_webhook_signature`. -/
def verifyWebhookSignature (g : Gateway F) (rawBody : Bytes) (signature : PyStr) :
    Except Err Bool :=
  match signatureParts signature with
  | (some timestamp, some provided) => compareDigest (expectedDigest g timestamp rawBody) provided
  | _ => .ok false

/-! ## The body -/

/-- `str` of a value. -/
def strOf (g : Gateway F) (value : Json F) : Except Err PyStr :=
  match value.toStr g.printing with
  | some text => .ok text
  | none => .error .valueError

/-- An item of a dictionary. -/
def item (fields : List (PyStr × Json F)) (key : String) : Except Err (Json F) :=
  match Json.get fields key with
  | some value => .ok value
  | none => .error .key

/-- The upper case of the characters that can make up `PAYMENT_SUCCEEDED`. -/
def upper (c : CodePoint) : CodePoint :=
  if h : 97 ≤ c.val ∧ c.val ≤ 122 then ⟨c.val - 32, by omega⟩
  else if c.val = 0x17f then codePoint 'S' else c

/-- The amount that a payload names: the payment's, or else the invoice's. -/
def amountOf (payment : List (PyStr × Json F)) (invoice : Json F) : Json F :=
  match Json.get payment "amount", invoice with
  | some amount, _ => amount
  | none, .obj invoice => (Json.get invoice "amount").getD .null
  | none, _ => .null

/-- `parse_money(str(amount)) if amount is not None else None`. A `MoneyError` is a `ValueError`. -/
def parseAmount (g : Gateway F) : Json F → Except Err (Option SignedDec)
  | .null => .ok none
  | amount => do
    match parseMoney (← strOf g amount) with
    | .ok x => return some x
    | .error (.money _) => throw .valueError
    | .error .invalidOperation => throw .invalidOperation

/-- The status that a payload names. -/
def statusOf (g : Gateway F) (eventType : PyStr) (payment : List (PyStr × Json F)) :
    Except Err PyStr :=
  if eventType.map upper = py "PAYMENT_SUCCEEDED" then return py "PAID"
  else do strOf g (← item payment "status")

/-- The event of a payload whose parts are objects. -/
def eventOf (g : Gateway F) (data details paymentLink payment : List (PyStr × Json F)) :
    Except Err WebhookEvent := do
  let amount := amountOf payment ((Json.get details "invoice").getD (.obj []))
  let eventType ← strOf g ((Json.get data "event_type").getD (.str []))
  let paymentLinkId ← strOf g (← item paymentLink "id")
  let status ← statusOf g eventType payment
  let amount ← parseAmount g amount
  return { paymentLinkId, status, amount }

/-- The `try` block of `_parse`. -/
def parseEvent (g : Gateway F) (rawBody : Bytes) : Except Err WebhookEvent :=
  match g.loads rawBody with
  | none => .error .valueError
  | some (.obj data) =>
    match (Json.get data "data").getD (.obj []) with
    | .obj details =>
      match (Json.get details "payment_link").getD (.obj []),
        (Json.get details "payment").getD (.obj []) with
      | .obj paymentLink, .obj payment => eventOf g data details paymentLink payment
      | _, _ => .error .typeError
    | _ => .error .typeError
  -- Nothing but an object has a method `get`.
  | some _ => .error .attributeError

/-- The `except` clause of `_parse`. -/
def malformed : Err → Err
  | .valueError | .key | .typeError => .validationDomain "Malformed webhook payload."
  | e => e

/-- `_parse`. -/
def parse (g : Gateway F) (rawBody : Bytes) : Except Err WebhookEvent :=
  (parseEvent g rawBody).mapError malformed

/-- The first two statements of `handle_webhook`. -/
def frontDoor (g : Gateway F) (rawBody : Bytes) (signature : PyStr) : Except Err WebhookEvent := do
  if !(← verifyWebhookSignature g rawBody signature) then throw .invalidWebhookSignature
  parse g rawBody

/-! ## Clean rejections -/

/-- A request produces an event, or is rejected for its signature or for its payload. -/
def Clean (result : Except Err WebhookEvent) : Prop :=
  (∃ event, result = .ok event) ∨ result = .error .invalidWebhookSignature ∨
    ∃ message, result = .error (.validationDomain message)

/-- A request carries the digest that is expected. -/
def Signed (g : Gateway F) (rawBody : Bytes) (signature : PyStr) : Prop :=
  ∃ timestamp,
    signatureParts signature = (some timestamp, some (expectedDigest g timestamp rawBody))

/-- A payload that has everything but its amount in order, and the text of the amount. -/
structure AmountText (g : Gateway F) (data details paymentLink payment : List (PyStr × Json F))
    (text : PyStr) : Prop where
  details_eq : (Json.get data "data").getD (.obj []) = .obj details
  paymentLink_eq : (Json.get details "payment_link").getD (.obj []) = .obj paymentLink
  payment_eq : (Json.get details "payment").getD (.obj []) = .obj payment
  id : ∃ id s, Json.get paymentLink "id" = some id ∧ strOf g id = .ok s
  status : ∃ eventType status,
    strOf g ((Json.get data "event_type").getD (.str [])) = .ok eventType ∧
      statusOf g eventType payment = .ok status
  ne_null : amountOf payment ((Json.get details "invoice").getD (.obj [])) ≠ .null
  text_eq : strOf g (amountOf payment ((Json.get details "invoice").getD (.obj []))) = .ok text

/-- The requests that raise anything else. -/
inductive Unclean (g : Gateway F) (rawBody : Bytes) (signature : PyStr) : Prop
  /-- A digest with a character outside of ASCII. -/
  | digest {timestamp provided : PyStr}
      (hparts : signatureParts signature = (some timestamp, some provided))
      (hascii : isAscii provided = false)
  /-- A signed document that is no object. -/
  | shape {data : Json F} (hsigned : Signed g rawBody signature)
      (hdata : g.loads rawBody = some data) (hshape : ∀ fields, data ≠ .obj fields)
  /-- A signed payload with an amount that is too long. -/
  | amount {data details paymentLink payment : List (PyStr × Json F)} {text : PyStr}
      (hsigned : Signed g rawBody signature) (hdata : g.loads rawBody = some (.obj data))
      (htext : AmountText g data details paymentLink payment text) (hlong : Overlong 2 text)

/-! ## The signature -/

variable {g : Gateway F} {rawBody : Bytes} {signature text : PyStr} {e : Err} {value : Json F}
  {data details paymentLink payment : List (PyStr × Json F)}

/-- A digest has hexadecimal digits alone. -/
theorem isAscii_expectedDigest (g : Gateway F) (timestamp : PyStr) (rawBody : Bytes) :
    isAscii (expectedDigest g timestamp rawBody) = true := by
  rw [isAscii, List.all_eq_true]
  intro c hc
  obtain ⟨d, -, rfl⟩ := List.mem_map.mp hc
  have hdigits : ∀ d : Fin 16, (codePoint (Nat.digitChar d.val)).val < 128 := by decide
  exact decide_eq_true (hdigits d)

/-- The signature is right. -/
theorem verify_true_iff :
    verifyWebhookSignature g rawBody signature = .ok true ↔ Signed g rawBody signature := by
  unfold verifyWebhookSignature compareDigest Signed
  constructor
  · intro h
    split at h
    · rename_i timestamp provided hparts
      split_ifs at h
      have heq : expectedDigest g timestamp rawBody = provided :=
        of_decide_eq_true (Except.ok.inj h)
      exact ⟨timestamp, by rw [hparts, heq]⟩
    · nomatch Except.ok.inj h
  · rintro ⟨timestamp, hparts⟩
    rw [hparts]
    dsimp only
    rw [isAscii_expectedDigest]
    exact congrArg Except.ok (decide_eq_true rfl)

/-- The comparison raises exactly when the digest is not ASCII. -/
theorem verify_error_iff : (∃ e, verifyWebhookSignature g rawBody signature = .error e) ↔
    ∃ timestamp provided, signatureParts signature = (some timestamp, some provided) ∧
      isAscii provided = false := by
  unfold verifyWebhookSignature compareDigest
  constructor
  · rintro ⟨e, h⟩
    split at h
    · rename_i timestamp provided hparts
      rw [isAscii_expectedDigest, Bool.true_and] at h
      split_ifs at h with hascii
      exact ⟨timestamp, provided, hparts, Bool.eq_false_iff.mpr hascii⟩
    · nomatch h
  · rintro ⟨timestamp, provided, hparts, hascii⟩
    rw [hparts]
    dsimp only
    rw [hascii, Bool.and_false]
    exact ⟨.typeError, rfl⟩

/-- The check of the signature raises nothing but a `TypeError`. -/
theorem verify_error (h : verifyWebhookSignature g rawBody signature = .error e) :
    e = .typeError := by
  unfold verifyWebhookSignature compareDigest at h
  split at h
  · split_ifs at h
    exact (Except.error.inj h).symm
  · nomatch h

/-! ## The body -/

/-- The errors that `_parse` turns into a rejection. -/
def Caught (e : Err) : Prop := e = .valueError ∨ e = .key ∨ e = .typeError

/-- What is caught becomes the error of a malformed payload. -/
theorem Caught.malformed (h : Caught e) :
    Webhook.malformed e = .validationDomain "Malformed webhook payload." := by
  rcases h with rfl | rfl | rfl <;> rfl

/-- What `str` raises is caught. -/
theorem strOf_error (h : strOf g value = .error e) : Caught e := by
  unfold strOf at h
  split at h
  · nomatch h
  · exact .inl (Except.error.inj h).symm

/-- What a missing item raises is caught. -/
theorem item_error {key : String} (h : item data key = .error e) : Caught e := by
  unfold item at h
  split at h
  · nomatch h
  · exact .inr (.inl (Except.error.inj h).symm)

/-- An item that is found is in the object. -/
theorem item_ok {key : String} (h : item data key = .ok value) :
    Json.get data key = some value := by
  unfold item at h
  split at h
  · rename_i hvalue
    rw [hvalue, Except.ok.inj h]
  · nomatch h

/-- What is raised for an unknown status is caught. -/
theorem statusOf_error {eventType : PyStr} (h : statusOf g eventType data = .error e) :
    Caught e := by
  unfold statusOf at h
  split_ifs at h
  · nomatch h
  · obtain h | ⟨status, -, h⟩ := Store.bind_eq_error.mp h
    · exact item_error h
    · exact strOf_error h

/-- What the parser of the amount raises. -/
theorem parseAmount_error (h : parseAmount g value = .error e) :
    Caught e ∨ e = .invalidOperation ∧ value ≠ .null ∧
      ∃ text, strOf g value = .ok text ∧ Overlong 2 text := by
  unfold parseAmount at h
  split at h
  · nomatch h
  · rename_i hnull
    cases htext : strOf g value with
    | error e' =>
      rw [htext] at h
      obtain rfl := Except.error.inj h
      exact .inl (strOf_error htext)
    | ok text =>
      rw [htext] at h
      change (match parseMoney text with
        | .ok x => (.ok (some x) : Except Err (Option SignedDec))
        | .error (.money _) => .error .valueError
        | .error .invalidOperation => .error .invalidOperation) = .error e at h
      split at h
      · nomatch h
      · exact .inl (.inl (Except.error.inj h).symm)
      · -- `parse_money` raises `InvalidOperation`, which nothing here catches.
        rename_i hlong
        exact .inr ⟨(Except.error.inj h).symm, fun heq => hnull heq, text, rfl,
          overlong_iff.mpr hlong⟩

/-- An amount that is too long is not caught. -/
theorem parseAmount_long (hnull : value ≠ .null) (htext : strOf g value = .ok text)
    (hlong : Overlong 2 text) : parseAmount g value = .error .invalidOperation := by
  have hraises : parseMoney text = .error .invalidOperation := overlong_iff.mp hlong
  unfold parseAmount
  split
  · exact absurd rfl hnull
  · rw [htext]
    show (match parseMoney text with
      | .ok x => (.ok (some x) : Except Err (Option SignedDec))
      | .error (.money _) => .error .valueError
      | .error .invalidOperation => .error .invalidOperation) = _
    rw [hraises]

/-- What the rest of a payload raises. -/
theorem eventOf_error (hdetails : (Json.get data "data").getD (.obj []) = .obj details)
    (hlink : (Json.get details "payment_link").getD (.obj []) = .obj paymentLink)
    (hpayment : (Json.get details "payment").getD (.obj []) = .obj payment)
    (h : eventOf g data details paymentLink payment = .error e) :
    Caught e ∨ e = .invalidOperation ∧
      ∃ text, AmountText g data details paymentLink payment text ∧ Overlong 2 text := by
  unfold eventOf at h
  obtain h | ⟨eventType, htype, h⟩ := Store.bind_eq_error.mp h
  · exact .inl (strOf_error h)
  obtain h | ⟨id, hid, h⟩ := Store.bind_eq_error.mp h
  · exact .inl (item_error h)
  obtain h | ⟨paymentLinkId, hlinkId, h⟩ := Store.bind_eq_error.mp h
  · exact .inl (strOf_error h)
  obtain h | ⟨status, hstatus, h⟩ := Store.bind_eq_error.mp h
  · exact .inl (statusOf_error h)
  obtain h | ⟨amount, -, h⟩ := Store.bind_eq_error.mp h
  · obtain h | ⟨rfl, hnull, text, htext, hlong⟩ := parseAmount_error h
    · exact .inl h
    exact .inr ⟨rfl, text, ⟨hdetails, hlink, hpayment, ⟨id, paymentLinkId, item_ok hid, hlinkId⟩,
      ⟨eventType, status, htype, hstatus⟩, hnull, htext⟩, hlong⟩
  · nomatch h

/-- What the parser raises. -/
theorem parseEvent_error (h : parseEvent g rawBody = .error e) :
    Caught e ∨
      (e = .attributeError ∧
        ∃ value, g.loads rawBody = some value ∧ ∀ fields, value ≠ .obj fields) ∨
      e = .invalidOperation ∧ ∃ data details paymentLink payment text,
        g.loads rawBody = some (.obj data) ∧ AmountText g data details paymentLink payment text ∧
          Overlong 2 text := by
  unfold parseEvent at h
  split at h
  · exact .inl (.inl (Except.error.inj h).symm)
  · rename_i data hdata
    split at h
    · -- An object: its fields decide.
      rename_i details hdetails
      split at h
      · rename_i paymentLink payment hlink hpayment
        obtain h | ⟨rfl, text, htext, hlong⟩ := eventOf_error hdetails hlink hpayment h
        · exact .inl h
        · exact .inr (.inr ⟨rfl, data, details, paymentLink, payment, text, hdata, htext, hlong⟩)
      · exact .inl (.inr (.inr (Except.error.inj h).symm))
    · exact .inl (.inr (.inr (Except.error.inj h).symm))
  · -- A value that is no object.
    rename_i value hno hvalue
    exact .inr (.inl ⟨(Except.error.inj h).symm, value, hvalue, fun fields heq => hno fields
      heq⟩)

/-- A document that is no object has no `get`. -/
theorem parseEvent_shape (hvalue : g.loads rawBody = some value)
    (hshape : ∀ fields, value ≠ .obj fields) : parseEvent g rawBody = .error .attributeError := by
  unfold parseEvent
  rw [hvalue]
  cases value with
  | obj fields => exact absurd rfl (hshape fields)
  | _ => rfl

/-- A payload in order with an amount that is too long. -/
theorem parseEvent_long (hdata : g.loads rawBody = some (.obj data))
    (htext : AmountText g data details paymentLink payment text) (hlong : Overlong 2 text) :
    parseEvent g rawBody = .error .invalidOperation := by
  obtain ⟨id, paymentLinkId, hid, hlinkId⟩ := htext.id
  obtain ⟨eventType, status, htype, hstatus⟩ := htext.status
  have hitem : item paymentLink "id" = .ok id := by rw [item, hid]
  have hamount := parseAmount_long htext.ne_null htext.text_eq hlong
  have hevent : eventOf g data details paymentLink payment = .error .invalidOperation := by
    rw [eventOf, htype, ok_bind, hitem, ok_bind, hlinkId, ok_bind, hstatus, ok_bind, hamount]
    rfl
  unfold parseEvent
  rw [hdata]
  dsimp only
  rw [htext.details_eq]
  dsimp only
  rw [htext.paymentLink_eq, htext.payment_eq]
  exact hevent

/-! ## The front door -/

/-- What the front door raises for a signed request, the parser raises. -/
theorem frontDoor_signed (hsigned : Signed g rawBody signature) :
    frontDoor g rawBody signature = parse g rawBody := by
  rw [frontDoor, verify_true_iff.mpr hsigned]
  rfl

/-- The front door rejects a request cleanly unless it is one of the three. -/
theorem rejects_cleanly_iff (g : Gateway F) (rawBody : Bytes) (header : Header) :
    Clean (frontDoor g rawBody header.text) ↔ ¬Unclean g rawBody header.text := by
  constructor
  · intro hclean hunclean
    -- Each of the three escaping kinds raises an error of its own.
    have hraises : ∃ e, frontDoor g rawBody header.text = .error e ∧
        e ≠ .invalidWebhookSignature ∧ ∀ m, e ≠ .validationDomain m := by
      cases hunclean with
      | digest hparts hascii =>
        obtain ⟨e, he⟩ := verify_error_iff.mpr ⟨_, _, hparts, hascii⟩
        obtain rfl := verify_error he
        refine ⟨.typeError, ?_, nofun, nofun⟩
        rw [frontDoor, he]
        rfl
      | shape hsigned hdata hshape =>
        refine ⟨.attributeError, ?_, nofun, nofun⟩
        rw [frontDoor_signed hsigned, parse, parseEvent_shape hdata hshape]
        rfl
      | amount hsigned hdata htext hlong =>
        refine ⟨.invalidOperation, ?_, nofun, nofun⟩
        rw [frontDoor_signed hsigned, parse, parseEvent_long hdata htext hlong]
        rfl
    obtain ⟨e, he, hsignature, hdomain⟩ := hraises
    rw [Clean, he] at hclean
    obtain ⟨_, h⟩ | h | ⟨m, h⟩ := hclean
    · nomatch h
    · exact hsignature (Except.error.inj h)
    · exact hdomain m (Except.error.inj h)
  · intro hclean
    cases hverify : verifyWebhookSignature g rawBody header.text with
    | error e =>
      -- `hmac.compare_digest` raises on a digest that is not ASCII.
      obtain ⟨timestamp, provided, hparts, hascii⟩ := verify_error_iff.mp ⟨e, hverify⟩
      exact absurd (.digest hparts hascii) hclean
    | ok verified =>
      cases verified with
      | false =>
        refine .inr (.inl ?_)
        rw [frontDoor, hverify]
        rfl
      | true =>
        have hsigned := verify_true_iff.mp hverify
        rw [frontDoor_signed hsigned, parse]
        cases hparse : parseEvent g rawBody with
        | ok event => exact .inl ⟨event, rfl⟩
        | error e =>
          -- A parse error is caught, or it is one of the two kinds that are not.
          obtain hcaught | ⟨-, value, hvalue, hshape⟩ | ⟨-, data, details, paymentLink, payment,
            text, hdata, htext, hlong⟩ := parseEvent_error hparse
          · exact .inr (.inr ⟨_, congrArg Except.error hcaught.malformed⟩)
          · exact absurd (.shape hsigned hvalue hshape) hclean
          · exact absurd (.amount hsigned hdata htext hlong) hclean

/-! ## Requests that raise -/

/-- Digits in hexadecimal. -/
def hexDigits (s : String) : List (Fin 16) :=
  s.toList.map fun c => Fin.ofNat 16 (if c.toNat < 97 then c.toNat - 48 else c.toNat - 87)

/-- A header in Latin-1. -/
def latin1 (s : String) : Header := s.toList.map fun c => Fin.ofNat 256 c.toNat

/-- The payload `[]`. -/
def arrayPayload : Bytes := encodeUtf8 "[]".toList

/-- A payload with an amount of 1e30. -/
def overlongPayload : Bytes :=
  encodeUtf8 ("\x7b\"data\":\x7b\"payment_link\":\x7b\"id\":\"x\"\x7d," ++
    "\"payment\":\x7b\"status\":\"PAID\",\"amount\":\"1e30\"\x7d\x7d\x7d").toList

/-- The digest of `arrayPayload` at the timestamp 1 under the secret `whsec`. -/
def arrayDigest : String := "3b31e62a3e2ec36096c077954b51c68b987f434a58c19a8d7cf6da5c758c4edb"

@[inherit_doc arrayDigest]
def overlongDigest : String := "a099e72a9da291f6fd38390692261c99827a53c0fbea1df2eb57c431e058d369"

/-- A gateway that knows these two payloads. -/
def sample : Gateway PUnit where
  hexdigest m :=
    hexDigits (if m = message (py "1") arrayPayload then arrayDigest else overlongDigest)
  loads body :=
    if body = arrayPayload then some (.arr [])
    else if body = overlongPayload then
      some (.obj [(py "data", .obj [(py "payment_link", .obj [(py "id", .str (py "x"))]),
        (py "payment", .obj [(py "status", .str (py "PAID")), (py "amount", .str (py "1e30"))])])])
    else none
  printing := { floatRepr := fun _ => py "0.0", isPrintable := fun c => 160 < c.val }

/-- A digest of `é`, a list for a payload, and an amount of 1e30 each raise something else. -/
theorem raises_else :
    frontDoor sample arrayPayload (latin1 "t=1,v1=é").text = .error .typeError ∧
    frontDoor sample arrayPayload (latin1 ("t=1,v1=" ++ arrayDigest)).text =
      .error .attributeError ∧
    frontDoor sample overlongPayload (latin1 ("t=1,v1=" ++ overlongDigest)).text =
      .error .invalidOperation ∧
    ¬∀ (g : Gateway PUnit) (rawBody : Bytes) (header : Header),
      Clean (frontDoor g rawBody header.text) := by
  have hraises : frontDoor sample arrayPayload (latin1 "t=1,v1=é").text = .error .typeError := by
    decide +kernel
  refine ⟨hraises, by decide +kernel, by decide +kernel, ?_⟩
  intro hclean
  have h := hclean sample arrayPayload (latin1 "t=1,v1=é")
  rw [Clean, hraises] at h
  obtain ⟨_, h⟩ | h | ⟨_, h⟩ := h
  · nomatch h
  · nomatch Except.error.inj h
  · nomatch Except.error.inj h

end Giftly.Webhook
