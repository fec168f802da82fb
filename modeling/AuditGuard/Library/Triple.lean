import AuditGuard.Library.Routine

/-!
# Triples for cooperative tasks

The program logic of `Routine.Sat` in the form in which it is used. Next to the shared invariant, a task knows facts
about the answers it got, the world and the time, and a fact that survives an await is steady. A triple
`Triple Y R P x Q E` says that where the invariant and `P` hold, the task `x` meets the rules, and ends with `Q` or
throws with `E`. Most tasks are only known to keep to the rules as long as some steady fact holds, which is
`Stays Y R P x`.
-/

namespace Routine

/-- What a task knows besides the invariant. -/
abbrev Fact (Req World : Type) (Res : Req → Type) :=
  List (Served World Req Res) → World → ℕ → Prop

variable {Mem Note Start Req World : Type} {Res : Req → Type} {α β : Type}
  {Y : System Mem Note Start Req World Res} {R : Rules Mem Note Start Req World Res}
  {P P' F : Fact Req World Res} {Q Q' : α → Fact Req World Res} {E E' : String → Fact Req World Res}
  {x : Routine Mem Note Start Req Res α}

variable (Y R) in
/-- A fact that holds still when an answer has arrived. -/
def Steady (F : Fact Req World Res) : Prop :=
  ∀ h m w t e w' t', R.inv m w → F h w t → Arrives Y h w t e w' t' → F (h ++ [e]) w' t'

variable (Y R) in
/-- Where the invariant and `P` hold, the task meets the rules, and ends with `Q` or throws with `E`. -/
def Triple (P : Fact Req World Res) (x : Routine Mem Note Start Req Res α) (Q : α → Fact Req World Res)
    (E : String → Fact Req World Res) : Prop :=
  ∀ h m w t, R.inv m w → P h w t →
    Sat Y R (fun a h m w t => R.inv m w ∧ Q a h w t) (fun e h m w t => R.inv m w ∧ E e h w t) x h m w t

variable (Y R) in
/-- Where the invariant and `P` hold, the task meets the rules, and `P` holds at its end. -/
abbrev Stays (P : Fact Req World Res) (x : Routine Mem Note Start Req Res α) : Prop :=
  Triple Y R P x (fun _ => P) (fun _ => P)

theorem Steady.and (hP : Steady Y R P) (hF : Steady Y R F) : Steady Y R fun h w t => P h w t ∧ F h w t :=
  fun h m w t e w' t' hinv hPF ha =>
    ⟨hP h m w t e w' t' hinv hPF.1 ha, hF h m w t e w' t' hinv hPF.2 ha⟩

theorem steady_const (p : Prop) : Steady Y R fun _ _ _ => p := fun _ _ _ _ _ _ _ _ h _ => h

namespace Triple

theorem mono (hx : Triple Y R P x Q E) (hP : ∀ h w t, P' h w t → P h w t)
    (hQ : ∀ a h w t, Q a h w t → Q' a h w t) (hE : ∀ e h w t, E e h w t → E' e h w t) :
    Triple Y R P' x Q' E' :=
  fun h m w t hinv hp => (hx h m w t hinv (hP h w t hp)).mono
    (fun a h _ w t hq => ⟨hq.1, hQ a h w t hq.2⟩) (fun e h _ w t he => ⟨he.1, hE e h w t he.2⟩)

theorem pre (hx : Triple Y R P x Q E) (hP : ∀ h w t, P' h w t → P h w t) : Triple Y R P' x Q E :=
  hx.mono hP (fun _ _ _ _ => id) (fun _ _ _ _ => id)

theorem pure {a : α} (h : ∀ h w t, P h w t → Q a h w t) : Triple Y R P (.done a) Q E :=
  fun h' _ w t hinv hp => ⟨hinv, h h' w t hp⟩

theorem fail {message : String} (h : ∀ h w t, P h w t → E message h w t) :
    Triple Y R P (.fail message : Routine Mem Note Start Req Res α) Q E :=
  fun h' _ w t hinv hp => ⟨hinv, h h' w t hp⟩

theorem bind {f : α → Routine Mem Note Start Req Res β} {Q' : β → Fact Req World Res}
    (hx : Triple Y R P x Q E) (hf : ∀ a, Triple Y R (Q a) (f a) Q' E) : Triple Y R P (x >>= f) Q' E :=
  fun h m w t hinv hp => Sat.bind ((hx h m w t hinv hp).mono
    (fun a h m w t hq => hf a h m w t hq.1 hq.2) (fun _ _ _ _ _ => id))

theorem tryCatch {f : String → Routine Mem Note Start Req Res α} (hx : Triple Y R P x Q E)
    (hf : ∀ e, Triple Y R (E e) (f e) Q E') : Triple Y R P (x.tryCatch f) Q E' :=
  fun h m w t hinv hp => Sat.tryCatch ((hx h m w t hinv hp).mono
    (fun _ _ _ _ _ => id) (fun e h m w t he => hf e h m w t he.1 he.2))

theorem attempt {Q : Option α → Fact Req World Res} (hx : Triple Y R P x (fun a => Q (some a)) (fun _ => Q none)) :
    Triple Y R P x.attempt Q E :=
  tryCatch (hx.bind fun _ => .pure fun _ _ _ => id) fun _ => .pure fun _ _ _ => id

theorem memory {Q : Mem → Fact Req World Res} (h : ∀ h m w t, R.inv m w → P h w t → Q m h w t) :
    Triple Y R P memory Q E :=
  fun h' m w t hinv hp => ⟨hinv, h h' m w t hinv hp⟩

theorem time {Q : ℕ → Fact Req World Res} (h : ∀ h w t, P h w t → Q t h w t) : Triple Y R P time Q E :=
  fun h' _ w t hinv hp => ⟨hinv, h h' w t hp⟩

theorem modify {f : Mem → Mem} (h : ∀ h m w t, R.inv m w → P h w t → R.inv (f m) w) :
    Triple Y R P (modify f) (fun _ => P) E :=
  fun h' m w t hinv hp => ⟨h h' m w t hinv hp, hp⟩

theorem tell {n : Note} : Triple Y R P (tell n) (fun _ h w t => P h w t ∧ R.assumes w t n) E :=
  fun _ _ _ _ hinv hp hn => ⟨hinv, hp, hn⟩

theorem spawn {s : Start} (h : ∀ h w t, P h w t → R.may h w t s) : Triple Y R P (spawn s) (fun _ => P) E :=
  fun h' _ w t hinv hp => ⟨h h' w t hp, hinv, hp⟩

theorem call {r : Req} {Q : Res r → Fact Req World Res} (hallows : ∀ h m w t, R.inv m w → P h w t → R.allows h m w t r)
    (hok : ∀ h m w t a src dst time w' t', R.inv m w → P h w t →
      Arrives Y h w t ⟨r, .ok a, src, dst, time⟩ w' t' → Q a (h ++ [⟨r, .ok a, src, dst, time⟩]) w' t')
    (herror : ∀ h m w t e src dst time w' t', R.inv m w → P h w t →
      Arrives Y h w t ⟨r, .error e, src, dst, time⟩ w' t' → E e (h ++ [⟨r, .error e, src, dst, time⟩]) w' t') :
    Triple Y R P (call r) Q E := by
  intro h m w t hinv hp
  refine ⟨hinv, hallows h m w t hinv hp, ?_⟩
  intro a src dst time m' w' t' harrives hinv'
  cases a with
  | ok a => exact ⟨hinv', hok h m w t a src dst time w' t' hinv hp harrives⟩
  | error e => exact ⟨hinv', herror h m w t e src dst time w' t' hinv hp harrives⟩

theorem ite {c : Prop} [Decidable c] {y : Routine Mem Note Start Req Res α}
    (hx : c → Triple Y R P x Q E) (hy : ¬ c → Triple Y R P y Q E) : Triple Y R P (if c then x else y) Q E := by
  split_ifs with hc
  · exact hx hc
  · exact hy hc

theorem of_pre (hx : ∀ h w t, P h w t → Triple Y R P x Q E) : Triple Y R P x Q E :=
  fun h m w t hinv hp => hx h w t hp h m w t hinv hp

end Triple

namespace Stays

theorem call (hP : Steady Y R P) {r : Req} (hallows : ∀ h m w t, R.inv m w → P h w t → R.allows h m w t r) :
    Stays Y R P (call r) :=
  Triple.call hallows
    (fun h m w t _ _ _ _ w' t' hinv hp ha => hP h m w t _ w' t' hinv hp ha)
    (fun h m w t _ _ _ _ w' t' hinv hp ha => hP h m w t _ w' t' hinv hp ha)

theorem pure (a : α) : Stays Y R P (.done a) := Triple.pure fun _ _ _ => id

theorem fail (message : String) : Stays Y R P (.fail message : Routine Mem Note Start Req Res α) :=
  Triple.fail fun _ _ _ => id

theorem bind {f : α → Routine Mem Note Start Req Res β} (hx : Stays Y R P x) (hf : ∀ a, Stays Y R P (f a)) :
    Stays Y R P (x >>= f) := Triple.bind hx hf

theorem tryCatch {f : String → Routine Mem Note Start Req Res α} (hx : Stays Y R P x)
    (hf : ∀ e, Stays Y R P (f e)) : Stays Y R P (x.tryCatch f) := Triple.tryCatch hx hf

theorem memory : Stays Y R P memory := Triple.memory fun _ _ _ _ _ => id

theorem time : Stays Y R P time := Triple.time fun _ _ _ => id

theorem sat (hx : Stays Y R P x) {h : List (Served World Req Res)} {m : Mem} {w : World} {t : ℕ} (hinv : R.inv m w)
    (hp : P h w t) : Sat Y R (fun _ _ m w _ => R.inv m w) (fun _ _ m w _ => R.inv m w) x h m w t :=
  (hx h m w t hinv hp).mono (fun _ _ _ _ _ hq => hq.1) (fun _ _ _ _ _ he => he.1)

end Stays

end Routine
