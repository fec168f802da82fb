import Mathlib.Data.List.Basic

/-!
# Lists whose entries go on by themselves

A list of processes, each of which goes on at its own place, while new ones are added at the end. `Pointwise R l l'`
says that every entry of `l` went on, as `R` allows, to the entry of `l'` at its place. `Sole key live l` says that
of the entries with one key at most one is live: entries that go on without coming to life keep that, and so does a
new entry whose key has no live one yet.
-/

/-- Every entry of `l'` is what `R` made of the entry of `l` at its place. -/
structure Pointwise {α : Type*} (R : α → α → Prop) (l l' : List α) : Prop where
  forth : ∀ (i : ℕ) (a : α), l[i]? = some a → ∃ b, l'[i]? = some b ∧ R a b
  back : ∀ (i : ℕ) (b : α), l'[i]? = some b → ∃ a, l[i]? = some a ∧ R a b

/-- Of the entries with one key at most one is live. -/
def Sole {α κ : Type*} (key : α → κ) (live : α → Prop) (l : List α) : Prop :=
  ∀ (i j : ℕ) (a b : α), l[i]? = some a → l[j]? = some b → key a = key b → live a → live b → i = j

variable {α κ : Type*} {R : α → α → Prop} {l l' : List α} {key : α → κ} {live : α → Prop} {a b : α}

namespace Pointwise

theorem refl (hR : ∀ a, R a a) (l : List α) : Pointwise R l l :=
  ⟨fun _ a ha => ⟨a, ha, hR a⟩, fun _ a ha => ⟨a, ha, hR a⟩⟩

theorem set {d : ℕ} (hR : ∀ a, R a a) (hd : l[d]? = some a) (hab : R a b) : Pointwise R l (l.set d b) := by
  have hlt := (List.getElem?_eq_some_iff.mp hd).1
  constructor
  case forth =>
    intro i c hc
    rcases eq_or_ne d i with rfl | hne
    · obtain rfl := Option.some.inj (hd.symm.trans hc)
      exact ⟨b, List.getElem?_set_self hlt, hab⟩
    · exact ⟨c, by rwa [List.getElem?_set_ne hne], hR c⟩
  case back =>
    intro i c hc
    rcases eq_or_ne d i with rfl | hne
    · rw [List.getElem?_set_self hlt] at hc
      obtain rfl := Option.some.inj hc
      exact ⟨a, hd, hab⟩
    · rw [List.getElem?_set_ne hne] at hc
      exact ⟨c, hc, hR c⟩

theorem map {f : α → α} (hR : ∀ a, R a (f a)) (l : List α) : Pointwise R l (l.map f) := by
  constructor
  case forth =>
    intro i a ha
    exact ⟨f a, by rw [List.getElem?_map, ha, Option.map_some], hR a⟩
  case back =>
    intro i b hb
    rw [List.getElem?_map, Option.map_eq_some_iff] at hb
    obtain ⟨a, ha, rfl⟩ := hb
    exact ⟨a, ha, hR a⟩

theorem mem_forth (h : Pointwise R l l') (ha : a ∈ l) : ∃ b ∈ l', R a b := by
  obtain ⟨i, hi⟩ := List.mem_iff_getElem?.mp ha
  obtain ⟨b, hb, hab⟩ := h.forth i a hi
  exact ⟨b, List.mem_of_getElem? hb, hab⟩

theorem mem_back (h : Pointwise R l l') (hb : b ∈ l') : ∃ a ∈ l, R a b := by
  obtain ⟨i, hi⟩ := List.mem_iff_getElem?.mp hb
  obtain ⟨a, ha, hab⟩ := h.back i b hi
  exact ⟨a, List.mem_of_getElem? ha, hab⟩

end Pointwise

namespace Sole

theorem nil : Sole key live [] := by
  intro i j a b ha
  simp at ha

theorem pointwise (h : Sole key live l) (hp : Pointwise R l l') (hkey : ∀ a b, R a b → key b = key a)
    (hlive : ∀ a b, R a b → live b → live a) : Sole key live l' := by
  intro i j b b' hb hb' heq hlb hlb'
  obtain ⟨a, ha, hab⟩ := hp.back i b hb
  obtain ⟨a', ha', hab'⟩ := hp.back j b' hb'
  rw [hkey a b hab, hkey a' b' hab'] at heq
  exact h i j a a' ha ha' heq (hlive a b hab hlb) (hlive a' b' hab' hlb')

theorem append (h : Sole key live l) (hnone : ∀ b ∈ l, key b = key a → ¬ live b) : Sole key live (l ++ [a]) := by
  -- An entry of the longer list is an old one at its old place, or the new one at the end.
  have hcases : ∀ (i : ℕ) (c : α), (l ++ [a])[i]? = some c → l[i]? = some c ∨ i = l.length ∧ c = a := by
    intro i c hc
    rcases Nat.lt_or_ge i l.length with hlt | hge
    · rw [List.getElem?_append_left hlt] at hc
      exact .inl hc
    · rw [List.getElem?_append_right hge, List.getElem?_singleton] at hc
      split_ifs at hc with hi
      exact .inr ⟨by omega, (Option.some.inj hc).symm⟩
  intro i j c c' hc hc' heq hlc hlc'
  rcases hcases i c hc with hold | ⟨hi, rfl⟩
  · rcases hcases j c' hc' with hold' | ⟨hj, rfl⟩
    · exact h i j c c' hold hold' heq hlc hlc'
    · exact absurd hlc (hnone c (List.mem_of_getElem? hold) heq)
  · rcases hcases j c' hc' with hold' | ⟨hj, rfl⟩
    · exact absurd hlc' (hnone c' (List.mem_of_getElem? hold') heq.symm)
    · omega

end Sole
