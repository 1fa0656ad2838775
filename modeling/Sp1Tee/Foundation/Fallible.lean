import Mathlib.Data.List.Forall2
import Mathlib.Data.Nat.Notation

/-!
# What a call of a fallible function comes to

A call returns a value, returns an error, or panics. In a `do` block the first error
or panic ends the whole, so that `ofExcept` and `okOr` stand for the `?` operator and
`expect` and `expectOk` for the calls that panic on a value of the wrong kind. `each` is
a loop over a list that collects what its body returns: it goes through the whole list,
or it ends as its body does on the first entry where that does not return.
-/

namespace Foundation

inductive Fallible (ε α : Type)
  | ok (a : α)
  | err (e : ε)
  | panic (message : String)
deriving DecidableEq

namespace Fallible

variable {ε ε' α β : Type}

def bind (x : Fallible ε α) (f : α → Fallible ε β) : Fallible ε β :=
  match x with
  | ok a => f a
  | err e => err e
  | panic message => panic message

instance : Monad (Fallible ε) where
  pure := ok
  bind := bind

@[simp] theorem ok_bind (a : α) (f : α → Fallible ε β) : (ok a >>= f) = f a := rfl

@[simp] theorem err_bind (e : ε) (f : α → Fallible ε β) : ((err e : Fallible ε α) >>= f) = err e :=
  rfl

@[simp] theorem panic_bind (message : String) (f : α → Fallible ε β) :
    ((panic message : Fallible ε α) >>= f) = panic message := rfl

theorem bind_eq_ok {x : Fallible ε α} {f : α → Fallible ε β} {b : β} :
    (x >>= f) = ok b ↔ ∃ a, x = ok a ∧ f a = ok b := by
  cases x <;> simp

def ofExcept : Except ε α → Fallible ε α
  | .ok a => ok a
  | .error e => err e

def okOr (x : Option α) (e : ε) : Fallible ε α :=
  match x with
  | some a => ok a
  | none => err e

def expect (x : Option α) (message : String) : Fallible ε α :=
  match x with
  | some a => ok a
  | none => panic message

def expectOk (x : Except ε' α) (message : String) : Fallible ε α :=
  match x with
  | .ok a => ok a
  | .error _ => panic message

def mapErr (f : ε → ε') (x : Fallible ε α) : Fallible ε' α :=
  match x with
  | ok a => ok a
  | err e => err (f e)
  | panic message => panic message

@[simp] theorem mapErr_ok (f : ε → ε') (a : α) : (ok a).mapErr f = ok a := rfl

@[simp] theorem mapErr_err (f : ε → ε') (e : ε) : (err e : Fallible ε α).mapErr f = err (f e) := rfl

@[simp] theorem ofExcept_ok (a : α) : (ofExcept (.ok a) : Fallible ε α) = ok a := rfl

@[simp] theorem ofExcept_error (e : ε) : (ofExcept (.error e) : Fallible ε α) = err e := rfl

@[simp] theorem okOr_some (a : α) (e : ε) : okOr (some a) e = ok a := rfl

@[simp] theorem okOr_none (e : ε) : (okOr none e : Fallible ε α) = err e := rfl

@[simp] theorem expect_some (a : α) (message : String) :
    (expect (some a) message : Fallible ε α) = ok a := rfl

@[simp] theorem expect_none (message : String) :
    (expect none message : Fallible ε α) = panic message := rfl

theorem mapErr_eq_ok {f : ε → ε'} {x : Fallible ε α} {a : α} : x.mapErr f = ok a ↔ x = ok a := by
  cases x <;> simp [mapErr]

theorem expectOk_eq_ok {x : Except ε' α} {message : String} {a : α} :
    (expectOk x message : Fallible ε α) = ok a ↔ x = .ok a := by
  cases x <;> simp [expectOk]

/-! ## Loops -/

/-- What `f` returns for each entry, in turn. -/
def each (f : α → Fallible ε β) : List α → Fallible ε (List β)
  | [] => ok []
  | a :: as => do
    let b ← f a
    let bs ← each f as
    ok (b :: bs)

variable {f : α → Fallible ε β}

@[simp] theorem each_nil : each f [] = ok [] := rfl

theorem each_cons (a : α) (as : List α) :
    each f (a :: as) = (do
      let b ← f a
      let bs ← each f as
      ok (b :: bs)) := rfl

theorem each_append (as as' : List α) :
    each f (as ++ as') = (do
      let bs ← each f as
      let bs' ← each f as'
      ok (bs ++ bs')) := by
  induction as with
  | nil =>
      rw [List.nil_append, each_nil, ok_bind]
      cases each f as' <;> rfl
  | cons a as ih =>
      rw [List.cons_append, each_cons, each_cons, ih]
      cases f a with
      | ok b =>
          cases each f as with
          | ok bs => cases each f as' <;> rfl
          | err e => rfl
          | panic message => rfl
      | err e => rfl
      | panic message => rfl

/-- The loop ends with the entry `a`: the entries before it were gone through. -/
def StopsAt (f : α → Fallible ε β) (as : List α) (a : α) : Prop :=
  ∃ before after, as = before ++ a :: after ∧ ∀ a' ∈ before, ∃ b, f a' = ok b

theorem StopsAt.cons {as : List α} {a a' : α} {b : β} (ha : f a' = ok b) (h : StopsAt f as a) :
    StopsAt f (a' :: as) a := by
  obtain ⟨before, after, rfl, hbefore⟩ := h
  exact ⟨a' :: before, after, rfl, List.forall_mem_cons.mpr ⟨⟨b, ha⟩, hbefore⟩⟩

/-- A loop collects these values exactly if they are those of its entries, in turn. -/
theorem each_eq_ok_iff {as : List α} {bs : List β} :
    each f as = ok bs ↔ List.Forall₂ (fun a b => f a = ok b) as bs := by
  induction as generalizing bs with
  | nil => rw [each_nil, ok.injEq, List.forall₂_nil_left_iff, eq_comm]
  | cons a as ih =>
      rw [each_cons, bind_eq_ok, List.forall₂_cons_left_iff]
      constructor
      · rintro ⟨b, hb, hrest⟩
        obtain ⟨bs', hbs', heq⟩ := bind_eq_ok.mp hrest
        exact ⟨b, bs', hb, ih.mp hbs', (ok.inj heq).symm⟩
      · rintro ⟨b, bs', hb, hbs', rfl⟩
        exact ⟨b, hb, bind_eq_ok.mpr ⟨bs', ih.mpr hbs', rfl⟩⟩

theorem each_eq_ok_map_iff {as : List α} {g : α → β} :
    each f as = ok (as.map g) ↔ ∀ a ∈ as, f a = ok (g a) := by
  rw [each_eq_ok_iff, List.forall₂_map_right_iff, List.forall₂_same]

theorem exists_of_forall₂ {as : List α} {bs : List β}
    (h : List.Forall₂ (fun a b => f a = ok b) as bs) : ∀ a ∈ as, ∃ b, f a = ok b := by
  induction h with
  | nil => exact List.forall_mem_nil _
  | cons hab _ ih => exact List.forall_mem_cons.mpr ⟨⟨_, hab⟩, ih⟩

theorem exists_each_eq_ok {R : α → β → Prop} {as : List α}
    (h : ∀ a ∈ as, ∃ b, f a = ok b ∧ R a b) :
    ∃ bs, each f as = ok bs ∧ List.Forall₂ R as bs := by
  induction as with
  | nil => exact ⟨[], rfl, .nil⟩
  | cons a as ih =>
      obtain ⟨⟨b, hb, hab⟩, hrest⟩ := List.forall_mem_cons.mp h
      obtain ⟨bs, hbs, hall⟩ := ih hrest
      exact ⟨b :: bs, by rw [each_cons, hb, ok_bind, hbs, ok_bind], .cons hab hall⟩

theorem exists_mem_of_forall₂ {R : α → β → Prop} {as : List α} {bs : List β}
    (h : List.Forall₂ R as bs) : ∀ b ∈ bs, ∃ a ∈ as, R a b := by
  induction h with
  | nil => exact List.forall_mem_nil _
  | cons hab _ ih =>
      refine List.forall_mem_cons.mpr ⟨⟨_, List.mem_cons_self, hab⟩, fun b hb => ?_⟩
      obtain ⟨a, ha, hab'⟩ := ih b hb
      exact ⟨a, List.mem_cons_of_mem _ ha, hab'⟩

theorem each_cases (f : α → Fallible ε β) (as : List α) :
    (∃ bs, each f as = ok bs ∧ List.Forall₂ (fun a b => f a = ok b) as bs) ∨
    (∃ a e, each f as = err e ∧ StopsAt f as a ∧ f a = err e) ∨
    ∃ a message, each f as = panic message ∧ StopsAt f as a ∧ f a = panic message := by
  induction as with
  | nil => exact Or.inl ⟨[], rfl, .nil⟩
  | cons a as ih =>
      have hhead : StopsAt f (a :: as) a := ⟨[], as, rfl, List.forall_mem_nil _⟩
      rw [each_cons]
      cases ha : f a with
      | err e => exact Or.inr (Or.inl ⟨a, e, rfl, hhead, ha⟩)
      | panic message => exact Or.inr (Or.inr ⟨a, message, rfl, hhead, ha⟩)
      | ok b =>
          rcases ih with ⟨bs, hbs, hall⟩ | ⟨a', e, he, hstop, ha'⟩ | ⟨a', message, hm, hstop, ha'⟩
          · exact Or.inl ⟨b :: bs, by rw [hbs]; rfl, .cons ha hall⟩
          · exact Or.inr (Or.inl ⟨a', e, by rw [he]; rfl, hstop.cons ha, ha'⟩)
          · exact Or.inr (Or.inr ⟨a', message, by rw [hm]; rfl, hstop.cons ha, ha'⟩)

end Fallible

end Foundation
