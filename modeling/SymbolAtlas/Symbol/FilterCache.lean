set_option autoImplicit false

/-! # Caches of answers

A cache keeps some of the answers that were given. Which ones is decided by its policy; the one that
tables have by default keeps the answers that were used last. -/

namespace SymbolAtlas

variable {κ ν : Type} [DecidableEq κ]

def answer? (entries : List (κ × ν)) (key : κ) : Option ν :=
  (entries.find? (·.1 = key)).map Prod.snd

/-- What a cache does with its entries when an answer is added, and when one is used again. It may
drop and reorder them, but it makes up no answer. -/
structure CachePolicy (κ ν : Type) [DecidableEq κ] where
  add (key : κ) (value : ν) (entries : List (κ × ν)) : List (κ × ν)
  use (key : κ) (entries : List (κ × ν)) : List (κ × ν)
  answer_add : ∀ {key value entries k v}, answer? (add key value entries) k = some v →
    (k = key ∧ v = value) ∨ answer? entries k = some v
  answer_use : ∀ {key entries k v}, answer? (use key entries) k = some v →
    answer? entries k = some v

namespace CachePolicy

/-- The entries with the answer for a key in front of those for other keys, as far as there is
room. -/
def toFront (capacity : Nat) (key : κ) (value : ν) (entries : List (κ × ν)) : List (κ × ν) :=
  ((key, value) :: entries.filter (·.1 ≠ key)).take capacity

theorem answer_toFront {capacity : Nat} {key k : κ} {value v : ν} {entries : List (κ × ν)}
    (h : answer? (toFront capacity key value entries) k = some v) :
    (k = key ∧ v = value) ∨ answer? entries k = some v := by
  obtain ⟨⟨k', v'⟩, hfind, rfl⟩ := Option.map_eq_some_iff.mp h
  -- leaving out the last entries leaves the first one of a key
  have hfull :=
    (List.take_prefix capacity ((key, value) :: entries.filter (·.1 ≠ key))).find?_eq_some
    hfind
  rw [List.find?_cons] at hfull
  by_cases hk : key = k
  · simp only [hk, decide_true, Option.some.injEq, Prod.mk.injEq] at hfull
    exact Or.inl ⟨hk.symm, hfull.2.symm⟩
  · simp only [hk, decide_false] at hfull
    have hothers : (entries.filter (·.1 ≠ key)).find? (·.1 = k) = entries.find? (·.1 = k) := by
      rw [List.find?_filter]
      congr 1
      funext e
      by_cases he : e.1 = k <;> simp [he, Ne.symm hk]
    refine Or.inr ?_
    unfold answer?
    rw [← hothers, hfull]
    rfl

/-- Keeps the `capacity` answers that were used last, the latest first. -/
def latest (capacity : Nat) : CachePolicy κ ν where
  add := toFront capacity
  use key entries :=
    match answer? entries key with
    | none => entries
    | some value => toFront capacity key value entries
  answer_add := answer_toFront
  answer_use := by
    intro key entries k v h
    split at h
    · exact h
    · rename_i value hvalue
      rcases answer_toFront h with ⟨rfl, rfl⟩ | hold
      · exact hvalue
      · exact hold

/-- Keeps nothing. -/
def nothing : CachePolicy κ ν where
  add _ _ _ := []
  use _ entries := entries
  answer_add h := nomatch h
  answer_use h := h

end CachePolicy

/-- Answers by key, kept under a policy. -/
structure FilterCache (κ ν : Type) [DecidableEq κ] where
  policy : CachePolicy κ ν
  entries : List (κ × ν) := []

namespace FilterCache

def get? (c : FilterCache κ ν) (key : κ) : Option ν :=
  answer? c.entries key

def insert (c : FilterCache κ ν) (key : κ) (value : ν) : FilterCache κ ν :=
  { c with entries := c.policy.add key value c.entries }

/-- What finding the answer for a key does to the cache. -/
def touch (c : FilterCache κ ν) (key : κ) : FilterCache κ ν :=
  { c with entries := c.policy.use key c.entries }

end FilterCache

end SymbolAtlas
