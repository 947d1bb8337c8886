import PolicyAuthoring.Session
import PolicyAuthoring.Proofs.Rules

/-!
# Runs of authoring sessions

A step that fails leaves the registry, the selection and the document of a session as they were; at
most a token has been drawn (`Session.step_of_error`). So the steps that fail can be left out of a
run: where no tokens are drawn, the run of the others has the same replies and ends in the same
state (`Session.run_kept`).

Tokens are counted, and no step sets the count back (`Session.Advances`). A compile that succeeds
under the unique strategy has drawn a token of its own, so two compiles in one run have no rule
identifier in common (`Session.disjoint_compiles`).
-/

namespace PolicyAuthoring

namespace Session

variable {s next : Session} {step : Step} {steps rest : List Step} {reply : Reply} {fault : Fault}

/-! ## Steps -/

/-- A step with a reply leads to the state that comes with the reply. -/
theorem step_of_ok (h : s.attempt step = .ok (reply, next)) : s.step step = (.ok reply, next) := by
  rw [Session.step.eq_def, h]

/-- The reply to a step comes with the state after it. -/
theorem attempt_of_step (h : (s.step step).1 = .ok reply) :
    s.attempt step = .ok (reply, (s.step step).2) := by
  cases hattempt : s.attempt step with
  | ok result =>
    obtain ⟨reply', next⟩ := result
    rw [step_of_ok hattempt] at h ⊢
    cases h
    rfl
  | error fault =>
    rw [Session.step.eq_def, hattempt] at h
    cases h

/-- What drawing leaves alone: all but the number of tokens, which it may raise. -/
theorem afterDraw_eq (s : Session) : ∃ drawn, s.drawn ≤ drawn ∧ s.afterDraw = { s with drawn } := by
  rw [afterDraw]
  split
  · exact ⟨_, Nat.le_succ _, rfl⟩
  · exact ⟨_, le_rfl, rfl⟩

/-- Under the timestamp strategy nothing is drawn. -/
theorem afterDraw_of_timestamp (h : s.strategy = .timestamp) : s.afterDraw = s := by
  rw [afterDraw, if_neg]
  rw [h]
  rintro ⟨hunique, -⟩
  cases hunique

/-- A step that fails leaves everything as it was, but for the number of tokens drawn; and that it
leaves as well under the timestamp strategy. -/
theorem step_of_error (h : (s.step step).1 = .error fault) :
    (∃ drawn, s.drawn ≤ drawn ∧ (s.step step).2 = { s with drawn }) ∧
      (s.strategy = .timestamp → (s.step step).2 = s) := by
  cases hattempt : s.attempt step with
  | ok result =>
    rw [step_of_ok hattempt] at h
    cases h
  | error fault' =>
    rw [Session.step.eq_def, hattempt]
    -- Only a compile can have drawn a token.
    cases step with
    | compile => exact ⟨s.afterDraw_eq, afterDraw_of_timestamp⟩
    | _ => exact ⟨⟨s.drawn, le_rfl, rfl⟩, fun _ => rfl⟩

/-! ## What no step sets back -/

/-- A later state of a session has the same settings, and no fewer tokens have been drawn. -/
structure Advances (s next : Session) : Prop where
  /-- The way to make stems is the same. -/
  strategy : next.strategy = s.strategy
  /-- The length to which summaries are cut is the same. -/
  summaryMaxLength : next.summaryMaxLength = s.summaryMaxLength
  /-- No token has been put back. -/
  drawn : s.drawn ≤ next.drawn

namespace Advances

/-- A state is a later state of itself. -/
@[refl]
theorem refl (s : Session) : s.Advances s := ⟨rfl, rfl, le_rfl⟩

/-- What comes after a later state is a later state. -/
@[trans]
theorem trans {later : Session} (h : s.Advances next) (h' : next.Advances later) :
    s.Advances later :=
  ⟨h'.strategy.trans h.strategy, h'.summaryMaxLength.trans h.summaryMaxLength,
    h.drawn.trans h'.drawn⟩

end Advances

/-- The state after drawing is a later state. -/
theorem advances_afterDraw (s : Session) : s.Advances s.afterDraw := by
  obtain ⟨drawn, hle, heq⟩ := s.afterDraw_eq
  rw [heq]
  exact ⟨rfl, rfl, hle⟩

/-- A step with a reply leads to a later state. -/
theorem advances_of_ok (h : s.attempt step = .ok (reply, next)) : s.Advances next := by
  cases step
  case compile =>
    obtain ⟨document, -, hresult⟩ := exists_of_bind_eq_ok h
    cases hresult
    exact ⟨s.advances_afterDraw.strategy, s.advances_afterDraw.summaryMaxLength,
      s.advances_afterDraw.drawn⟩
  case explain index =>
    rw [attempt] at h
    split at h <;> cases h
    exact .refl s
  -- The other steps set one part of the state, if they have a reply at all.
  case setName | setDescription | setSubject | add | remove | setClock | showSelection |
      showDocument =>
    cases h
    exact ⟨rfl, rfl, le_rfl⟩
  all_goals
    obtain ⟨read, -, hresult⟩ := exists_of_bind_eq_ok h
    cases hresult
    exact ⟨rfl, rfl, le_rfl⟩

/-- Every step leads to a later state. -/
theorem advances_step (s : Session) (step : Step) : s.Advances (s.step step).2 := by
  cases hresult : (s.step step).1 with
  | ok reply => exact advances_of_ok (attempt_of_step hresult)
  | error fault =>
    obtain ⟨⟨drawn, hle, heq⟩, -⟩ := step_of_error hresult
    rw [heq]
    exact ⟨rfl, rfl, hle⟩

/-! ## Runs -/

/-- The state after steps done one after the other. -/
def after (s : Session) : List Step → Session
  | [] => s
  | step :: rest => (s.step step).2.after rest

/-- The replies to steps are the reply to the first and those to the rest in the state after it. -/
theorem run_cons (s : Session) (step : Step) (rest : List Step) :
    s.run (step :: rest) = (s.step step).1 :: (s.step step).2.run rest := rfl

/-- The state after more steps is that after the further steps from the state in between. -/
theorem after_append (s : Session) (steps rest : List Step) :
    s.after (steps ++ rest) = (s.after steps).after rest := by
  induction steps generalizing s with
  | nil => rfl
  | cons step steps ih => exact ih _

/-- The replies to more steps are those to the steps and those to the further steps. -/
theorem run_append (s : Session) (steps rest : List Step) :
    s.run (steps ++ rest) = s.run steps ++ (s.after steps).run rest := by
  induction steps generalizing s with
  | nil => rfl
  | cons step steps ih => exact congrArg _ (ih _)

/-- A run leads to a later state. -/
theorem advances_after (s : Session) (steps : List Step) : s.Advances (s.after steps) := by
  induction steps generalizing s with
  | nil => exact .refl s
  | cons step steps ih => exact (s.advances_step step).trans (ih _)

/-- The steps of a run that do not fail. -/
def kept (s : Session) : List Step → List Step
  | [] => []
  | step :: rest =>
    if (s.step step).1.isOk then step :: (s.step step).2.kept rest else (s.step step).2.kept rest

/-- Under the timestamp strategy the steps that fail can be left out of a run: the others have the
same replies, and the state in the end is the same. -/
theorem run_kept (s : Session) (steps : List Step) (hstrategy : s.strategy = .timestamp) :
    s.run (s.kept steps) = (s.run steps).filter Except.isOk ∧
      s.after (s.kept steps) = s.after steps := by
  induction steps generalizing s with
  | nil => exact ⟨rfl, rfl⟩
  | cons step steps ih =>
    obtain ⟨hrun, hafter⟩ :=
      ih (s.step step).2 ((s.advances_step step).strategy.trans hstrategy)
    rw [kept, run_cons, after]
    cases hresult : (s.step step).1 with
    | ok reply =>
      have hok : (.ok reply : Except Fault Reply).isOk = true := rfl
      rw [if_pos hok, List.filter_cons_of_pos hok, run_cons, after, hrun, hafter, hresult]
      exact ⟨rfl, rfl⟩
    | error fault =>
      -- The state is as it was, so nothing is lost with the step.
      have hsame : (s.step step).2 = s := (step_of_error hresult).2 hstrategy
      rw [hsame] at hrun hafter ⊢
      exact ⟨hrun, hafter⟩

/-! ## Identifiers of rules -/

/-- A compile that succeeds under the unique strategy takes the next token for its stem. -/
theorem compile_of_step {d : Document} (hstrategy : s.strategy = .unique)
    (h : (s.step .compile).1 = .ok (.document d)) :
    s.registry.compile (.unique (s.drawn + 1)) s.selection = .ok d ∧
      (s.step .compile).2.drawn = s.drawn + 1 := by
  have hattempt := attempt_of_step h
  obtain ⟨document, hcompile, hresult⟩ := exists_of_bind_eq_ok hattempt
  obtain ⟨hdocument, hnext⟩ := Prod.mk.inj (Except.ok.inj hresult)
  cases hdocument
  rw [stem, hstrategy] at hcompile
  obtain ⟨hcompilable, -⟩ := Registry.compile_eq_ok_iff.mp hcompile
  refine ⟨hcompile, ?_⟩
  rw [← hnext, afterDraw, if_pos ⟨hstrategy, hcompilable.complete⟩]

/-- Under the unique strategy two compiles of one run have no rule identifier in common, whatever is
done between them. -/
theorem disjoint_compiles (hstrategy : s.strategy = .unique) {d d' : Document}
    (h : ((s.after steps).step .compile).1 = .ok (.document d))
    (h' : ((s.after (steps ++ .compile :: rest)).step .compile).1 = .ok (.document d')) :
    (d.rules.map Rule.id).Disjoint (d'.rules.map Rule.id) := by
  obtain ⟨hcompile, hdrawn⟩ :=
    compile_of_step ((s.advances_after steps).strategy.trans hstrategy) h
  obtain ⟨hcompile', -⟩ := compile_of_step ((s.advances_after _).strategy.trans hstrategy) h'
  obtain ⟨-, start, hstart, rfl⟩ := Registry.compile_eq_ok_iff.mp hcompile
  obtain ⟨-, start', hstart', rfl⟩ := Registry.compile_eq_ok_iff.mp hcompile'
  -- The first compile has drawn its token, and no step has put it back.
  have hlater := (((s.after steps).step .compile).2.advances_after rest).drawn
  rw [hdrawn] at hlater
  have hstate : s.after (steps ++ .compile :: rest) =
      ((s.after steps).step .compile).2.after rest := s.after_append steps (.compile :: rest)
  rw [← hstate] at hlater
  have hapart : Stem.Apart (.unique ((s.after steps).drawn + 1))
      (.unique ((s.after (steps ++ .compile :: rest)).drawn + 1)) :=
    .unique (by omega)
  exact Registry.disjoint_ids (hapart.text_ne hstart hstart')

end Session

end PolicyAuthoring
