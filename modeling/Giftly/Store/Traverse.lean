import Giftly.Store.Outcome
import Giftly.Store.Program
import Giftly.Store.Table

/-!
# Passes over a table

A pass rewrites the rows of a table one after the other by a step that may fail and that reports
something for each row. It fails with the first row that does.
-/

namespace Giftly.Store

section Rel

variable {α β γ δ : Type} {R : α → β → Prop} {S : γ → δ → Prop} {x : Option α} {y : Option β}

/-- The relation of two optional values may be weakened. -/
theorem rel_imp {R' : α → β → Prop} (h : Option.Rel R x y)
    (himp : ∀ a, ∀ b ∈ y, R a b → R' a b) : Option.Rel R' x y := by
  cases h with
  | some hab => exact .some (himp _ _ rfl hab)
  | none => exact .none

/-- Relations of optional values compose. -/
theorem rel_comp {T : β → γ → Prop} {U : α → γ → Prop} {z : Option γ} (h : Option.Rel R x y)
    (h' : Option.Rel T y z) (hcomp : ∀ a b, ∀ c ∈ z, R a b → T b c → U a c) :
    Option.Rel U x z := by
  cases h with
  | some hab =>
    cases h' with
    | some hbc => exact .some (hcomp _ _ _ rfl hab hbc)
  | none =>
    cases h'
    exact .none

/-- What is related to nothing is related to nothing else. -/
theorem rel_none {S' : α → γ → Prop} (h : Option.Rel R x none) :
    Option.Rel S' x none := by
  cases h
  exact .none

/-- Related values are computed further by related functions. -/
theorem rel_bind {f : α → Option γ} {g : β → Option δ} (h : Option.Rel R x y)
    (hfg : ∀ a b, R a b → Option.Rel S (f a) (g b)) : Option.Rel S (x.bind f) (y.bind g) := by
  cases h with
  | some hab => exact hfg _ _ hab
  | none => exact .none

/-- Related values are mapped to related values. -/
theorem rel_map {f : α → γ} {g : β → δ} (h : Option.Rel R x y)
    (hfg : ∀ a b, R a b → S (f a) (g b)) : Option.Rel S (x.map f) (y.map g) := by
  cases h with
  | some hab => exact .some (hfg _ _ hab)
  | none => exact .none

end Rel

namespace Table

variable {K V W E : Type} [DecidableEq K]

/-- Rewrite every row by a step that may fail, with what each step reports. -/
def traverse (t : Table K V) (f : K → V → Except E (V × W)) : Except E (Table K V × List W) := do
  let reports ← t.rows.mapM fun r => (f r.1 r.2).map Prod.snd
  return (t.mapRows fun k v => ((f k v).toOption.map Prod.fst).getD v, reports)

/-- A pass of which no step fails. -/
theorem traverse_eq_ok {t : Table K V} {f : K → V → Except E (V × W)} {g : K → V → V}
    {report : K → V → W} (h : ∀ k v, t.get? k = some v → f k v = .ok (g k v, report k v)) :
    t.traverse f = .ok (t.mapRows g, t.rows.map fun r => report r.1 r.2) := by
  have hreports : (t.rows.mapM fun r => (f r.1 r.2).map Prod.snd) =
      .ok (t.rows.map fun r => report r.1 r.2) := by
    apply mapM_eq_ok
    intro r hr
    rw [h r.1 r.2 (get?_eq_some.mpr hr)]
    rfl
  have hrows : (t.mapRows fun k v => ((f k v).toOption.map Prod.fst).getD v) = t.mapRows g := by
    apply mapRows_congr
    intro k v hv
    rw [h k v hv]
    rfl
  rw [traverse, hreports, ← hrows]
  rfl

/-- A pass that succeeds has rewritten every row. -/
theorem traverse_ok {t t' : Table K V} {ws : List W} {f : K → V → Except E (V × W)}
    (h : t.traverse f = .ok (t', ws)) (k : K) :
    Option.Rel (fun v v' => ∃ w, f k v = .ok (v', w)) (t.get? k) (t'.get? k) := by
  obtain ⟨reports, hmap, hret⟩ := exists_of_bind_eq_ok h
  obtain ⟨rfl, -⟩ := Prod.mk.inj (Except.ok.inj hret)
  rw [get?_mapRows]
  cases hv : t.get? k with
  | none => exact .none
  | some v =>
    have hsteps : List.Forall₂ (fun w (r : K × V) => (f r.1 r.2).map Prod.snd = .ok w) reports
        t.rows := .flip (forall₂_of_mapM_eq_ok hmap)
    obtain ⟨w, -, hw⟩ := exists_of_forall₂_right hsteps (get?_eq_some.mp hv)
    apply Option.Rel.some
    cases hf : f k v with
    | error e =>
      rw [hf] at hw
      cases hw
    | ok r =>
      refine ⟨r.2, ?_⟩
      dsimp only
      rw [hf]
      rfl

/-- A pass that leaves every row as it is. -/
theorem mapRows_eq_self {t : Table K V} {f : K → V → V}
    (h : ∀ k v, t.get? k = some v → f k v = v) : t.mapRows f = t := by
  have hid : t.mapRows (fun _ v => v) = t := by
    obtain ⟨rows, nodup⟩ := t
    unfold mapRows
    congr 1
    exact List.map_id rows
  calc t.mapRows f = t.mapRows fun _ v => v := mapRows_congr h
    _ = t := hid

end Table

end Giftly.Store
