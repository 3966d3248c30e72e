/-
# Theory.Runs — schedules of a partial step function

A concurrent component is given by a state type and a partial step function
`step : σ → α → Option σ`: an action names the party that moves and what the
environment chooses for it, and `none` says that the party cannot make that move
now.  A schedule is a list of actions; `run` executes it and fails as soon as an
action is not enabled, so a statement about every `run … = some s` is a statement
about every interleaving.

Four proof rules carry the developments built on this:

* `run_invariant`: what every enabled action keeps, every run keeps (`run_invariant_on`
  for schedules of one kind of actions);
* `run_history`: the same with the schedule executed so far in the invariant, for
  properties that relate a state to what happened before it.  `Precedes` is the
  commonest of them: one kind of action only after another;
* `run_origin`: what a run brings about, one of its steps brings about;
* `run_to`: a run exists that reaches a goal, when a measure can be made to go down until
  the goal is reached.

`Along P` says that `P` holds of every action of a schedule and the state it is taken in;
`good_iff_along` turns a step-wise account of when a property is lost into one for runs.
`Always Q` says that `Q` holds in every state a schedule goes through; `always_iff_along`
is the corresponding rule for a property that may be lost and regained.  `Answered` says that
every action of one kind is followed by one of another; `good_iff_answered` is the rule for a
property that the first kind spoils and the second restores.

`modifyAt` moves one component of an indexed family; `modifyAt_some` says what it
replaces, and `forall_modifyAt` what that does to a property of all components
(`forall_mapM` when all of them move).
-/
import Mathlib.Data.List.Induction

namespace DrogonR.Theory.Runs

set_option autoImplicit false

universe u v

section Schedules

variable {σ : Type u} {α : Type v} {step : σ → α → Option σ}

/-- Execute a schedule; `none` as soon as one of its actions is not enabled. -/
def run (step : σ → α → Option σ) : σ → List α → Option σ
  | s, [] => some s
  | s, a :: acts => (step s a).bind fun next => run step next acts

@[simp] theorem run_nil (s : σ) : run step s [] = some s := rfl

@[simp] theorem run_cons (s : σ) (a : α) (acts : List α) :
    run step s (a :: acts) = (step s a).bind fun next => run step next acts := rfl

theorem run_append (s : σ) (first second : List α) :
    run step s (first ++ second) = (run step s first).bind fun mid => run step mid second := by
  induction first generalizing s with
  | nil => rfl
  | cons a acts ih =>
      simp only [List.cons_append, run_cons, Option.bind_assoc]
      congr 1
      funext next
      exact ih next

theorem run_snoc (s : σ) (acts : List α) (a : α) :
    run step s (acts ++ [a]) = (run step s acts).bind fun mid => step mid a := by
  rw [run_append]
  congr 1
  funext mid
  simp

/-- **Invariant rule**, for schedules of a certain kind of actions. -/
theorem run_invariant_on {Inv : σ → Prop} {Kind : α → Prop}
    (keep : ∀ s a t, Kind a → step s a = some t → Inv s → Inv t) :
    ∀ {acts : List α} {s t : σ}, (∀ a ∈ acts, Kind a) → run step s acts = some t → Inv s → Inv t
  | [], s, t, _, ran, inv => by
      cases ran
      exact inv
  | a :: acts, s, t, kinds, ran, inv => by
      rw [run_cons, Option.bind_eq_some_iff] at ran
      obtain ⟨mid, stepped, rest⟩ := ran
      exact run_invariant_on keep (fun b member => kinds b (List.mem_cons_of_mem _ member)) rest
        (keep s a mid (kinds a List.mem_cons_self) stepped inv)

/-- **Invariant rule.** What every enabled action keeps, every run keeps. -/
theorem run_invariant {Inv : σ → Prop} (keep : ∀ s a t, step s a = some t → Inv s → Inv t)
    {acts : List α} {s t : σ} (ran : run step s acts = some t) (inv : Inv s) : Inv t :=
  run_invariant_on (fun s a t (_ : True) => keep s a t) (fun _ _ => trivial) ran inv

/-- **History rule.** An invariant may mention the schedule executed so far. -/
theorem run_history {Inv : List α → σ → Prop} {start : σ} (initial : Inv [] start)
    (keep : ∀ past s a t, Inv past s → step s a = some t → Inv (past ++ [a]) t)
    {acts : List α} {t : σ} (ran : run step start acts = some t) : Inv acts t := by
  induction acts using List.reverseRecOn generalizing t with
  | nil =>
      cases ran
      exact initial
  | append_singleton past a ih =>
      rw [run_snoc, Option.bind_eq_some_iff] at ran
      obtain ⟨mid, before, stepped⟩ := ran
      exact keep past mid a t (ih before) stepped

/-- **Origin rule.** What holds after a run and did not before is brought about by a step. -/
theorem run_origin {Q : σ → Prop} : ∀ {acts : List α} {s t : σ}, ¬ Q s →
    run step s acts = some t → Q t →
      ∃ before a after mid next, acts = before ++ a :: after ∧ run step s before = some mid ∧
        step mid a = some next ∧ run step next after = some t ∧ ¬ Q mid ∧ Q next
  | [], s, t, without, ran, holds => by
      cases ran
      exact absurd holds without
  | a :: acts, s, t, without, ran, holds => by
      rw [run_cons, Option.bind_eq_some_iff] at ran
      obtain ⟨next, stepped, rest⟩ := ran
      by_cases now : Q next
      · exact ⟨[], a, acts, s, next, rfl, rfl, stepped, rest, without, now⟩
      · obtain ⟨before, b, after, mid, last, rfl, reached, later⟩ := run_origin now rest holds
        refine ⟨a :: before, b, after, mid, last, rfl, ?_, later⟩
        rw [run_cons, stepped]
        exact reached

/-- **Progress rule.** A system that can always go down until it is done has a run to there. -/
theorem run_to {Inv Done : σ → Prop} (measure : σ → Nat)
    (progress : ∀ s, Inv s → ¬ Done s → ∃ a t, step s a = some t ∧ Inv t ∧ measure t < measure s)
    {s : σ} (inv : Inv s) : ∃ acts t, run step s acts = some t ∧ Inv t ∧ Done t := by
  induction size : measure s using Nat.strongRecOn generalizing s with
  | _ n ih =>
      by_cases done : Done s
      · exact ⟨[], s, rfl, inv, done⟩
      · obtain ⟨a, mid, stepped, keeps, less⟩ := progress s inv done
        rw [size] at less
        obtain ⟨acts, t, ran, kept, there⟩ := ih (measure mid) less keeps rfl
        refine ⟨a :: acts, t, ?_, kept, there⟩
        rw [run_cons, stepped]
        exact ran

/-- Every action of kind `late` in the schedule has one of kind `early` before it. -/
def Precedes (early late : α → Prop) (acts : List α) : Prop :=
  ∀ before a after, acts = before ++ a :: after → late a → ∃ b ∈ before, early b

theorem precedes_nil (early late : α → Prop) : Precedes early late [] := by
  intro before a after empty
  simp at empty

theorem precedes_snoc {early late : α → Prop} {past : List α} {a : α} :
    Precedes early late (past ++ [a]) ↔
      Precedes early late past ∧ (late a → ∃ b ∈ past, early b) := by
  constructor
  · intro all
    refine ⟨fun before x after split => ?_, all past a [] rfl⟩
    exact all before x (after ++ [a]) (by simp [split])
  · rintro ⟨old, new⟩ before x after split isLate
    rcases List.eq_nil_or_concat after with rfl | ⟨rest, last, rfl⟩
    · obtain ⟨rfl, same⟩ := List.append_inj' split rfl
      cases same
      exact new isLate
    · have shorter : past ++ [a] = (before ++ x :: rest) ++ [last] := by simp [split]
      obtain ⟨rfl, -⟩ := List.append_inj' shorter rfl
      exact old before x rest rfl isLate

/-- `P` holds of every action of the schedule, in the state it is taken in. -/
def Along (step : σ → α → Option σ) (P : σ → α → Prop) (start : σ) (acts : List α) : Prop :=
  ∀ before a after mid, acts = before ++ a :: after → run step start before = some mid → P mid a

theorem along_nil (P : σ → α → Prop) (start : σ) : Along step P start [] := by
  intro before a after mid empty
  simp at empty

theorem along_snoc {P : σ → α → Prop} {start s : σ} {past : List α} {a : α}
    (ran : run step start past = some s) :
    Along step P start (past ++ [a]) ↔ Along step P start past ∧ P s a := by
  constructor
  · intro all
    refine ⟨fun before x after mid split reached => ?_, all past a [] s rfl ran⟩
    exact all before x (after ++ [a]) mid (by simp [split]) reached
  · rintro ⟨old, new⟩ before x after mid split reached
    rcases List.eq_nil_or_concat after with rfl | ⟨rest, last, rfl⟩
    · obtain ⟨rfl, same⟩ := List.append_inj' split rfl
      cases same
      cases ran.symm.trans reached
      exact new
    · have shorter : past ++ [a] = (before ++ x :: rest) ++ [last] := by simp [split]
      obtain ⟨rfl, -⟩ := List.append_inj' shorter rfl
      exact old before x rest mid rfl reached

theorem along_of_forall {P : σ → α → Prop} {start : σ} {acts : List α}
    (all : ∀ a ∈ acts, ∀ s, P s a) : Along step P start acts := by
  intro before a after mid split _
  exact all a (by rw [split]; simp) mid

theorem along_append {P : σ → α → Prop} {start mid : σ} {first second : List α}
    (ran : run step start first = some mid) (early : Along step P start first)
    (late : Along step P mid second) : Along step P start (first ++ second) := by
  intro before a after s split reached
  rcases List.append_eq_append_iff.mp split with ⟨rest, rfl, tail⟩ | ⟨rest, rfl, tail⟩
  · rw [run_append, ran] at reached
    exact late rest a after s tail reached
  · cases rest with
    | nil =>
        rw [List.append_nil] at ran
        cases ran.symm.trans reached
        exact late [] a after _ tail.symm rfl
    | cons b rest =>
        cases tail
        exact early before a rest s rfl reached

theorem along_cons {P : σ → α → Prop} {s t : σ} {a : α} {acts : List α} (now : P s a)
    (stepped : step s a = some t) (late : Along step P t acts) : Along step P s (a :: acts) := by
  have early : Along step P s [a] := by
    have whole : Along step P s ([] ++ [a]) := (along_snoc rfl).mpr ⟨along_nil P s, now⟩
    exact whole
  have ran : run step s [a] = some t := by
    rw [run_cons, stepped]
    rfl
  exact along_append ran early late

/-- **Invariant rule**, for schedules along which `P` holds. -/
theorem run_along {Inv : σ → Prop} {P : σ → α → Prop}
    (keep : ∀ s a t, step s a = some t → P s a → Inv s → Inv t) {start t : σ} {acts : List α}
    (along : Along step P start acts) (ran : run step start acts = some t) (inv : Inv start) :
    Inv t := by
  have history : ∀ past s a t, (run step start past = some s ∧
      (Along step P start past → Inv s)) → step s a = some t →
      run step start (past ++ [a]) = some t ∧ (Along step P start (past ++ [a]) → Inv t) := by
    rintro past s a t ⟨ran, old⟩ stepped
    refine ⟨by rw [run_snoc, ran]; exact stepped, fun all => ?_⟩
    obtain ⟨before, now⟩ := (along_snoc ran).mp all
    exact keep s a t stepped now (old before)
  exact (run_history ⟨rfl, fun _ => inv⟩ history ran).2 along

/-- A property that a step keeps exactly when `P` holds of it survives a run exactly when
`P` holds along the run. -/
theorem good_iff_along {Inv Good : σ → Prop} {P : σ → α → Prop} {start : σ} (inv : Inv start)
    (good : Good start) (keep : ∀ s a t, step s a = some t → Inv s → Inv t)
    (one : ∀ s a t, step s a = some t → Inv s → (Good t ↔ Good s ∧ P s a))
    {acts : List α} {t : σ} (ran : run step start acts = some t) :
    Good t ↔ Along step P start acts := by
  have history : ∀ past s a t, (run step start past = some s ∧ Inv s ∧
      (Good s ↔ Along step P start past)) → step s a = some t →
      run step start (past ++ [a]) = some t ∧ Inv t ∧
        (Good t ↔ Along step P start (past ++ [a])) := by
    rintro past s a t ⟨ran, inv, iff_⟩ stepped
    refine ⟨by rw [run_snoc, ran]; exact stepped, keep s a t stepped inv, ?_⟩
    rw [one s a t stepped inv, along_snoc ran, iff_]
  exact (run_history ⟨rfl, inv, iff_of_true good (along_nil P start)⟩ history ran).2.2

/-- `Q` holds in every state the schedule goes through. -/
def Always (step : σ → α → Option σ) (Q : σ → Prop) (start : σ) (acts : List α) : Prop :=
  ∀ before after mid, acts = before ++ after → run step start before = some mid → Q mid

theorem always_nil {Q : σ → Prop} {start : σ} : Always step Q start [] ↔ Q start := by
  constructor
  · intro all
    exact all [] [] start rfl rfl
  · intro holds before after mid split reached
    obtain ⟨rfl, rfl⟩ := List.append_eq_nil_iff.mp split.symm
    cases reached
    exact holds

theorem always_snoc {Q : σ → Prop} {start t : σ} {past : List α} {a : α}
    (ran : run step start (past ++ [a]) = some t) :
    Always step Q start (past ++ [a]) ↔ Always step Q start past ∧ Q t := by
  constructor
  · intro all
    refine ⟨fun before after mid split reached => ?_, all (past ++ [a]) [] t (by simp) ran⟩
    exact all before (after ++ [a]) mid (by simp [split]) reached
  · rintro ⟨old, new⟩ before after mid split reached
    rcases List.eq_nil_or_concat after with rfl | ⟨rest, last, rfl⟩
    · rw [List.append_nil] at split
      rw [← split, ran] at reached
      cases reached
      exact new
    · have shorter : past ++ [a] = (before ++ rest) ++ [last] := by simp [split]
      obtain ⟨rfl, -⟩ := List.append_inj' shorter rfl
      exact old before rest mid rfl reached

/-- A property that, where it holds, a step keeps exactly when `P` holds of the step, holds
throughout a run exactly when `P` holds along it. -/
theorem always_iff_along {Inv Good : σ → Prop} {P : σ → α → Prop} {start : σ} (inv : Inv start)
    (good : Good start) (keep : ∀ s a t, step s a = some t → Inv s → Inv t)
    (one : ∀ s a t, step s a = some t → Inv s → Good s → (Good t ↔ P s a))
    {acts : List α} {t : σ} (ran : run step start acts = some t) :
    Always step Good start acts ↔ Along step P start acts := by
  have history : ∀ past s a t, (run step start past = some s ∧ Inv s ∧
      (Always step Good start past ↔ Along step P start past)) → step s a = some t →
      run step start (past ++ [a]) = some t ∧ Inv t ∧
        (Always step Good start (past ++ [a]) ↔ Along step P start (past ++ [a])) := by
    rintro past s a t ⟨ran, inv, iff_⟩ stepped
    have ran' : run step start (past ++ [a]) = some t := by
      rw [run_snoc, ran]
      exact stepped
    refine ⟨ran', keep s a t stepped inv, ?_⟩
    rw [always_snoc ran', along_snoc ran, ← iff_]
    refine and_congr_right fun all => ?_
    exact one s a t stepped inv (all past [] s (by simp) ran)
  exact (run_history ⟨rfl, inv, iff_of_true (always_nil.mpr good) (along_nil P start)⟩
    history ran).2.2

/-- Every action that opens something is followed by one that closes it. -/
def Answered (step : σ → α → Option σ) (opens closes : σ → α → Prop) (start : σ) (acts : List α) :
    Prop :=
  ∀ before a after mid, acts = before ++ a :: after → run step start before = some mid →
    opens mid a → ∃ first b rest late, after = first ++ b :: rest ∧
      run step start (before ++ a :: first) = some late ∧ closes late b

theorem answered_nil (opens closes : σ → α → Prop) (start : σ) :
    Answered step opens closes start [] := by
  intro before a after mid empty
  simp at empty

theorem answered_snoc {opens closes : σ → α → Prop} {start s : σ} {past : List α} {a : α}
    (ran : run step start past = some s) :
    Answered step opens closes start (past ++ [a]) ↔
      (closes s a ∨ Answered step opens closes start past) ∧ ¬ opens s a := by
  constructor
  · intro all
    refine ⟨?_, fun opened => ?_⟩
    · by_cases closed : closes s a
      · exact Or.inl closed
      · refine Or.inr fun before x after mid split reached opened => ?_
        obtain ⟨first, b, rest, late, tail, there, closing⟩ :=
          all before x (after ++ [a]) mid (by simp [split]) reached opened
        rcases List.eq_nil_or_concat rest with rfl | ⟨rest, last, rfl⟩
        · -- the closing action would be the last one
          obtain ⟨rfl, same⟩ := List.append_inj' tail rfl
          cases same
          rw [← split, ran] at there
          cases there
          exact absurd closing closed
        · have shorter : after ++ [a] = (first ++ b :: rest) ++ [last] := by simp [tail]
          obtain ⟨rfl, -⟩ := List.append_inj' shorter rfl
          exact ⟨first, b, rest, late, rfl, there, closing⟩
    · obtain ⟨first, b, rest, late, tail, -⟩ := all past a [] s rfl ran opened
      simp at tail
  · rintro ⟨closed, unopened⟩ before x after mid split reached opened
    rcases List.eq_nil_or_concat after with rfl | ⟨after, last, rfl⟩
    · obtain ⟨rfl, same⟩ := List.append_inj' split rfl
      cases same
      cases ran.symm.trans reached
      exact absurd opened unopened
    · have shorter : past ++ [a] = (before ++ x :: after) ++ [last] := by simp [split]
      obtain ⟨rfl, same⟩ := List.append_inj' shorter rfl
      cases same
      rcases closed with now | early
      · exact ⟨after, a, [], s, by simp, ran, now⟩
      · obtain ⟨first, b, rest, late, rfl, there, closing⟩ := early before x after mid rfl reached opened
        exact ⟨first, b, rest ++ [a], late, by simp, there, closing⟩

/-- A property that one kind of action spoils and another restores holds after a run exactly
when every action of the first kind has one of the second after it. -/
theorem good_iff_answered {Good : σ → Prop} {opens closes : σ → α → Prop} {start : σ}
    (good : Good start)
    (one : ∀ s a t, step s a = some t → (Good t ↔ (closes s a ∨ Good s) ∧ ¬ opens s a))
    {acts : List α} {t : σ} (ran : run step start acts = some t) :
    Good t ↔ Answered step opens closes start acts := by
  have history : ∀ past s a t, (run step start past = some s ∧
      (Good s ↔ Answered step opens closes start past)) → step s a = some t →
      run step start (past ++ [a]) = some t ∧
        (Good t ↔ Answered step opens closes start (past ++ [a])) := by
    rintro past s a t ⟨ran, iff_⟩ stepped
    refine ⟨by rw [run_snoc, ran]; exact stepped, ?_⟩
    rw [one s a t stepped, answered_snoc ran, iff_]
  exact (run_history ⟨rfl, iff_of_true good (answered_nil opens closes start)⟩ history ran).2

end Schedules

section Indexed

variable {β : Type u}

/-- Move component `i` of an indexed family by a partial function. -/
def modifyAt (f : β → Option β) : Nat → List β → Option (List β)
  | _, [] => none
  | 0, x :: xs => (f x).map fun y => y :: xs
  | i + 1, x :: xs => (modifyAt f i xs).map fun ys => x :: ys

/-- Moving component `i` replaces it by its image and touches nothing else. -/
theorem modifyAt_some {f : β → Option β} :
    ∀ {i : Nat} {xs ys : List β}, modifyAt f i xs = some ys →
      ∃ before x y after, xs = before ++ x :: after ∧ ys = before ++ y :: after ∧
        before.length = i ∧ f x = some y
  | _, [], ys, moved => by simp [modifyAt] at moved
  | 0, x :: xs, ys, moved => by
      simp only [modifyAt, Option.map_eq_some_iff] at moved
      obtain ⟨y, image, rfl⟩ := moved
      exact ⟨[], x, y, xs, rfl, rfl, rfl, image⟩
  | i + 1, x :: xs, ys, moved => by
      simp only [modifyAt, Option.map_eq_some_iff] at moved
      obtain ⟨zs, inner, rfl⟩ := moved
      obtain ⟨before, a, b, after, rfl, rfl, len, image⟩ := modifyAt_some inner
      exact ⟨x :: before, a, b, after, rfl, rfl, by simp [len], image⟩

/-- A property kept by the move, and held by all components, is held by all
components afterwards. -/
theorem forall_modifyAt {f : β → Option β} {P : β → Prop}
    (keep : ∀ x y, f x = some y → P x → P y) {i : Nat} {xs ys : List β}
    (moved : modifyAt f i xs = some ys) (all : ∀ x ∈ xs, P x) : ∀ y ∈ ys, P y := by
  obtain ⟨before, x, y, after, rfl, rfl, -, image⟩ := modifyAt_some moved
  intro z member
  simp only [List.mem_append, List.mem_cons] at member all
  rcases member with early | rfl | late
  · exact all z (Or.inl early)
  · exact keep x z image (all x (Or.inr (Or.inl rfl)))
  · exact all z (Or.inr (Or.inr late))

/-- The same when all components move at once. -/
theorem forall_mapM {f : β → Option β} {P : β → Prop} (keep : ∀ x y, f x = some y → P x → P y) :
    ∀ {xs ys : List β}, xs.mapM f = some ys → (∀ x ∈ xs, P x) → ∀ y ∈ ys, P y
  | [], ys, moved, _ => by
      cases moved
      exact fun y member => absurd member List.not_mem_nil
  | x :: xs, ys, moved, all => by
      rw [List.mapM_cons] at moved
      obtain ⟨y, image, moved⟩ := Option.bind_eq_some_iff.mp moved
      obtain ⟨rest, images, moved⟩ := Option.bind_eq_some_iff.mp moved
      cases moved
      intro z member
      rcases List.mem_cons.mp member with rfl | later
      · exact keep x z image (all x List.mem_cons_self)
      · exact forall_mapM keep images (fun x member => all x (List.mem_cons_of_mem _ member)) z later

/-- A property that no component gains or loses when all of them move. -/
theorem forall_mapM_iff {f : β → Option β} {Inv P : β → Prop}
    (same : ∀ x y, f x = some y → Inv x → (P y ↔ P x)) :
    ∀ {xs ys : List β}, xs.mapM f = some ys → (∀ x ∈ xs, Inv x) →
      ((∀ y ∈ ys, P y) ↔ ∀ x ∈ xs, P x)
  | [], ys, moved, _ => by
      cases moved
      exact Iff.rfl
  | x :: xs, ys, moved, inv => by
      rw [List.mapM_cons] at moved
      obtain ⟨y, image, moved⟩ := Option.bind_eq_some_iff.mp moved
      obtain ⟨rest, images, moved⟩ := Option.bind_eq_some_iff.mp moved
      cases moved
      rw [List.forall_mem_cons] at inv
      rw [List.forall_mem_cons, List.forall_mem_cons, same x y image inv.1,
        forall_mapM_iff same images inv.2]

end Indexed

end DrogonR.Theory.Runs
