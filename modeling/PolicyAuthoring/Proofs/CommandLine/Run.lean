import PolicyAuthoring.CommandLine.Outcome
import PolicyAuthoring.Proofs.Value.Guarded

/-!
# Steps of runs

What the steps of a run come to and what they leave behind. A step that only reads leaves everything
as it is, whether it has a result or a fault. Printing leaves the files as they are
(`Run.KeepsFiles`), so a run changes no file before it opens one, and only a compile that is given a
path opens one (`Request.keepsFiles_run`).

A run comes to an end if each of its steps does: what is read is there, and what is printed is taken
by the stream for output (`Run.Completes`). What cannot be loaded is answered with a line, and then
only that line has to be printed (`completes_answering_load`).
-/

namespace PolicyAuthoring.CommandLine

variable {α β : Type} {s : Surroundings} {w w' : World} {text : CodePoints}

/-! ## Results and faults -/

namespace Run

variable {x : Run α} {f : α → Run β} {a : α} {fault : RunFault}

/-- After a step with a result, the run goes on with the result. -/
theorem bind_of_ok (h : x w = .ok a w') : (x >>= f) w = f a w' := by
  show EStateM.bind x f w = _
  rw [EStateM.bind, h]

/-- After a step with a fault, the run is at its end. -/
theorem bind_of_error (h : x w = .error fault w') : (x >>= f) w = .error fault w' := by
  show EStateM.bind x f w = _
  rw [EStateM.bind, h]

/-- Steps that come to the same are followed by the same. -/
theorem bind_congr {y : Run α} (h : x w = y w') : (x >>= f) w = (y >>= f) w' := by
  cases hy : y w' with
  | ok a after => rw [bind_of_ok hy, bind_of_ok (h.trans hy)]
  | error fault after => rw [bind_of_error hy, bind_of_error (h.trans hy)]

/-- A run of two steps has a result if both have one. -/
theorem bind_eq_ok {b : β} (h : (x >>= f) w = .ok b w') :
    ∃ a between, x w = .ok a between ∧ f a between = .ok b w' := by
  cases hx : x w with
  | ok a between => exact ⟨a, between, rfl, (bind_of_ok hx).symm.trans h⟩
  | error fault between => cases (bind_of_error hx).symm.trans h

/-- What has a result changes nothing. -/
theorem lift_ok {x : Except Fault α} (h : x = .ok a) : (liftM x : Run α) w = .ok a w := by
  rw [h]
  rfl

/-- What has a fault changes nothing. -/
theorem lift_error {x : Except Fault α} {fault : Fault} (h : x = .error fault) :
    (liftM x : Run α) w = .error (.operation fault) w := by
  rw [h]
  rfl

/-- What the files hold is loaded, and nothing changes. -/
theorem load_ok {read : Files → Except Fault α} (h : read w.files = .ok a) :
    load read w = .ok a w :=
  lift_ok h

/-- What cannot be loaded changes nothing. -/
theorem load_error {read : Files → Except Fault α} {fault : Fault}
    (h : read w.files = .error fault) : load read w = .error (.operation fault) w :=
  lift_error h

end Run

/-! ## Printing and opening files -/

namespace Surroundings

/-- A stream takes a text if it takes its parts. -/
theorem takes_append {more : CodePoints} : s.Takes (text ++ more) ↔ s.Takes text ∧ s.Takes more :=
  List.forall_mem_append

/-- A stream that takes every character takes every string. -/
theorem takes_codes (h : ∀ c : Char, s.encodes c.toNat = true) (text : String) :
    s.Takes text := by
  intro code hcode
  obtain ⟨c, -, rfl⟩ := List.mem_map.mp hcode
  exact h c

/-- A stream in UTF-8 takes every string. -/
theorem takes_codes_utf8 (h : s.encodes = encodesUtf8) (text : String) : s.Takes text := by
  refine takes_codes (fun c => ?_) text
  rw [h, encodesUtf8, decide_eq_true_iff]
  exact c.valid

/-- A text that the stream takes is printed. -/
theorem print_of_takes (h : s.Takes text) :
    s.print text w = .ok () { w with printed := w.printed ++ text } := by
  have hnone : text.find? (fun code => !s.encodes code) = none := by
    rw [List.find?_eq_none]
    intro code hcode
    rw [h code hcode]
    exact Bool.false_ne_true
  rw [print, hnone]
  rfl

/-- Nothing is printed of a text that the stream does not take. -/
theorem print_of_not_takes (h : ¬ s.Takes text) (w : World) :
    ∃ code, s.print text w = .error (.unprintable code) w := by
  have hsome : (text.find? fun code => !s.encodes code).isSome = true := by
    rw [List.find?_isSome]
    simpa [Takes] using h
  obtain ⟨code, hcode⟩ := Option.isSome_iff_exists.mp hsome
  refine ⟨code, ?_⟩
  rw [print, hcode]
  rfl

/-- A path that can be written to is opened, and the file is empty then. -/
theorem openFile_of_writable {path : String} (h : s.writable path = true) :
    s.openFile path w = .ok () { w with files := w.files.write path "" } := by
  rw [openFile, h]
  rfl

/-- A path that cannot be written to is not opened, and nothing changes. -/
theorem openFile_of_not_writable {path : String} (h : s.writable path = false) :
    s.openFile path w = .error (.unwritable path) w := by
  rw [openFile, h]
  rfl

/-- A line that the stream takes is printed. -/
theorem printLine_of_takes (h : s.Takes (text ++ "\n")) :
    s.printLine text w = .ok () { w with printed := w.printed ++ (text ++ "\n") } := by
  obtain ⟨htext, hend⟩ := takes_append.mp h
  rw [printLine, Run.bind_of_ok (print_of_takes htext), print_of_takes hend, List.append_assoc]

/-- A line that the stream does not take may be printed but for its end, and changes no file. -/
theorem printLine_of_not_takes (h : ¬ s.Takes (text ++ "\n")) (w : World) :
    ∃ code after, after.files = w.files ∧
      s.printLine text w = .error (.unprintable code) after := by
  rw [takes_append, not_and] at h
  by_cases htext : s.Takes text
  · let between : World := { w with printed := w.printed ++ text }
    obtain ⟨code, hcode⟩ := print_of_not_takes (h htext) between
    exact ⟨code, between, rfl, (Run.bind_of_ok (print_of_takes htext)).trans hcode⟩
  · obtain ⟨code, hcode⟩ := print_of_not_takes htext w
    exact ⟨code, w, rfl, Run.bind_of_error hcode⟩

end Surroundings

/-! ## Answered faults -/

section Answering

variable {x : Run Nat} {y : Run Nat} {fault : RunFault} {exitCode : Nat}

/-- An exit code stands. -/
theorem answering_of_ok (h : x w = .ok exitCode w') : answering s x w = .ok exitCode w' := by
  show EStateM.tryCatch x (answer s) w = _
  delta EStateM.tryCatch
  simp only [h]

/-- A fault is answered. -/
theorem answering_of_error (h : x w = .error fault w') :
    answering s x w = answer s fault w' := by
  show EStateM.tryCatch x (answer s) w = _
  delta EStateM.tryCatch
  simp only [h]
  rfl

/-- Runs that come to the same are answered alike. -/
theorem answering_congr (h : x w = y w') : answering s x w = answering s y w' := by
  cases hy : y w' with
  | ok exitCode after => rw [answering_of_ok hy, answering_of_ok (h.trans hy)]
  | error fault after => rw [answering_of_error hy, answering_of_error (h.trans hy)]

end Answering

/-! ## Runs that change no file -/

/-- What a run leaves behind, however it ends. -/
def left : EStateM.Result RunFault World α → World
  | .ok _ w => w
  | .error _ w => w

namespace Run

/-- A run that leaves the files as they are, however it ends. -/
def KeepsFiles (x : Run α) : Prop := ∀ w, (left (x w)).files = w.files

namespace KeepsFiles

variable {x : Run α} {f : α → Run β}

/-- A result changes no file. -/
theorem pure (a : α) : KeepsFiles (Pure.pure a : Run α) := fun _ => rfl

/-- Steps that change no file are runs that change no file. -/
theorem bind (hx : KeepsFiles x) (hf : ∀ a, KeepsFiles (f a)) : KeepsFiles (x >>= f) := by
  intro w
  have hfirst := hx w
  cases hresult : x w with
  | ok a between =>
    rw [hresult] at hfirst
    rw [bind_of_ok hresult, hf a between]
    exact hfirst
  | error fault between =>
    rw [hresult] at hfirst
    rw [bind_of_error hresult]
    exact hfirst

/-- What can fail without leaving anything behind changes no file. -/
theorem lift (x : Except Fault α) : KeepsFiles (liftM x : Run α) := by
  intro w
  cases x <;> rfl

/-- Reading changes no file. -/
theorem load (read : Files → Except Fault α) : KeepsFiles (Run.load read) :=
  fun w => lift (read w.files) w

/-- Printing changes no file. -/
theorem print (s : Surroundings) (text : CodePoints) : KeepsFiles (s.print text) := by
  intro w
  by_cases htakes : s.Takes text
  · rw [Surroundings.print_of_takes htakes]
    rfl
  · obtain ⟨code, hcode⟩ := Surroundings.print_of_not_takes htakes w
    rw [hcode]
    rfl

/-- Printing a line changes no file. -/
theorem printLine (s : Surroundings) (text : CodePoints) : KeepsFiles (s.printLine text) :=
  (print s text).bind fun _ => print s _

/-- A step that changes no file changes none when it is done for one item after the other. -/
theorem forM {γ : Type} {f : γ → Run Unit} (hf : ∀ c, KeepsFiles (f c)) (items : List γ) :
    KeepsFiles (items.forM f) := by
  induction items with
  | nil => exact pure ()
  | cons c items ih => exact (hf c).bind fun _ => ih

/-- Answering faults changes no file. -/
theorem answering {x : Run Nat} (hx : KeepsFiles x) (s : Surroundings) :
    KeepsFiles (answering s x) := by
  intro w
  have hfirst := hx w
  cases hresult : x w with
  | ok a between =>
    rw [hresult] at hfirst
    rw [answering_of_ok hresult]
    exact hfirst
  | error fault between =>
    rw [hresult] at hfirst
    rw [answering_of_error hresult]
    -- The answer is a line, or the fault itself.
    refine Eq.trans ?_ hfirst
    rw [answer.eq_def]
    split
    · exact ((printLine s _).bind fun _ => pure _) between
    · rfl

end KeepsFiles

/-! ## Exit codes -/

/-- A run whose exit codes are 0 and 1. -/
def ExitsPlainly (x : Run Nat) : Prop :=
  ∀ w exitCode after, x w = .ok exitCode after → exitCode = 0 ∨ exitCode = 1

namespace ExitsPlainly

/-- The exit code for what was done. -/
theorem done : ExitsPlainly (pure 0) := by
  intro w exitCode after h
  cases h
  exact .inl rfl

/-- The exit code for what could not be done. -/
theorem failed : ExitsPlainly (pure 1) := by
  intro w exitCode after h
  cases h
  exact .inr rfl

/-- The exit code of a run is that of its last step. -/
theorem bind {x : Run α} {f : α → Run Nat} (h : ∀ a, ExitsPlainly (f a)) :
    ExitsPlainly (x >>= f) := by
  intro w exitCode after hcode
  obtain ⟨a, between, -, hlast⟩ := bind_eq_ok hcode
  exact h a between exitCode after hlast

/-- Answering a fault ends with such an exit code. -/
theorem answering {x : Run Nat} (hx : ExitsPlainly x) (s : Surroundings) :
    ExitsPlainly (answering s x) := by
  intro w exitCode after h
  cases hresult : x w with
  | ok code between =>
    rw [answering_of_ok hresult] at h
    cases h
    exact hx w _ _ hresult
  | error fault between =>
    rw [answering_of_error hresult, answer.eq_def] at h
    split at h
    · exact bind (fun _ => failed) _ _ _ h
    · cases h

end ExitsPlainly

/-! ## Runs that come to an end -/

/-- A run that comes to an end of its own: it has a result. -/
def Completes (x : Run α) (w : World) : Prop := ∃ a after, x w = .ok a after

end Run

section Completes

variable {x : Run α} {f : α → Run Nat} {a : α} {fault : RunFault}

open Run

/-- An exit code is an end. -/
theorem completes_answering_pure (exitCode : Nat) : (answering s (pure exitCode)).Completes w :=
  ⟨exitCode, w, answering_of_ok rfl⟩

/-- Runs that come to the same come to an end alike. -/
theorem completes_answering_congr {x y : Run Nat} (h : x w = y w') :
    (answering s x).Completes w ↔ (answering s y).Completes w' := by
  rw [Completes, Completes, answering_congr h]

/-- After a step with a result, the rest of the run has to come to an end. -/
theorem completes_answering_of_ok (h : x w = .ok a w') :
    (answering s (x >>= f)).Completes w ↔ (answering s (f a)).Completes w' :=
  completes_answering_congr (bind_of_ok h)

/-- A fault for which there is no answer is no end. -/
theorem not_completes_answering (h : x w = .error fault w')
    (hload : ∀ cause, fault ≠ .operation (.load cause)) :
    ¬ (answering s (x >>= f)).Completes w := by
  rintro ⟨exitCode, after, hcode⟩
  rw [answering_of_error (bind_of_error h), answer.eq_def] at hcode
  split at hcode
  · exact hload _ rfl
  · cases hcode

/-- A text has to be taken by the stream for output. -/
theorem completes_answering_print {f : Unit → Run Nat} :
    (answering s (s.print text >>= f)).Completes w ↔
      s.Takes text ∧ (answering s (f ())).Completes { w with printed := w.printed ++ text } := by
  by_cases htakes : s.Takes text
  · rw [completes_answering_of_ok (Surroundings.print_of_takes htakes), and_iff_right htakes]
  · obtain ⟨code, hcode⟩ := Surroundings.print_of_not_takes htakes w
    exact iff_of_false (not_completes_answering hcode nofun) fun h => htakes h.1

end Completes

/-- The lines that explain a rule come with exit code 0 or 1. -/
theorem explanationLines_eq (d : Document) (rule : String) :
    (∃ lines, explanationLines d rule = (0, lines)) ∨
      ∃ lines, explanationLines d rule = (1, lines) := by
  rw [explanationLines.eq_def]
  split
  · exact .inl ⟨_, rfl⟩
  · exact .inr ⟨_, rfl⟩

/-- Every request that comes to an end does so with exit code 0 or 1. -/
theorem Request.exitsPlainly_run (s : Surroundings) (request : Request) :
    (request.run s).ExitsPlainly := by
  refine Run.ExitsPlainly.answering (.bind fun r => ?_) s
  rw [perform]
  split
  case h_1 =>
    refine .bind fun selection => ?_
    rw [compileTo]
    split
    · exact .bind fun _ => .failed
    · exact .bind fun _ => .bind fun _ => .bind fun _ => .done
  case h_2 => exact .bind fun _ => .bind fun _ => .bind fun _ => .done
  case h_3 =>
    refine .bind fun d => ?_
    obtain ⟨lines, hlines⟩ | ⟨lines, hlines⟩ := explanationLines_eq d _ <;> rw [hlines]
    · exact .bind fun _ => .done
    · exact .bind fun _ => .failed
  case h_4 => exact .bind fun _ => .bind fun _ => .bind fun _ => .bind fun _ => .done
  case h_5 =>
    refine .bind fun d => ?_
    split <;> exact .bind fun _ => .bind fun _ => .done
  case h_6 => exact .bind fun _ => .done

/-- A compile that prints its document changes no file. -/
theorem keepsFiles_compileTo (s : Surroundings) (r : Registry) (stem : Stem)
    (selection : Selection) : (compileTo s r stem selection none).KeepsFiles := by
  rw [compileTo]
  split
  · exact (Run.KeepsFiles.printLine s _).bind fun _ => .pure 1
  · exact (Run.KeepsFiles.lift _).bind fun d => (Run.KeepsFiles.lift _).bind fun json =>
      (Run.KeepsFiles.printLine s _).bind fun _ => .pure 0

/-- Only a compile that is given a path to write to changes files. -/
theorem Request.keepsFiles_run (s : Surroundings) {request : Request}
    (h : ∀ path output, request.command ≠ .compile path (some output)) :
    (request.run s).KeepsFiles := by
  refine Run.KeepsFiles.answering ((Run.KeepsFiles.load _).bind fun r => ?_) s
  rw [perform]
  split
  case h_1 path output hcommand =>
    cases output with
    | some output => exact absurd hcommand (h path output)
    | none => exact (Run.KeepsFiles.load _).bind fun selection => keepsFiles_compileTo s r _ _
  case h_2 =>
    exact (Run.KeepsFiles.load _).bind fun selection => (Run.KeepsFiles.lift _).bind fun text =>
      (Run.KeepsFiles.printLine s _).bind fun _ => .pure 0
  case h_3 =>
    exact (Run.KeepsFiles.load _).bind fun d =>
      (Run.KeepsFiles.forM (Run.KeepsFiles.printLine s) _).bind fun _ => .pure _
  case h_4 =>
    exact (Run.KeepsFiles.load _).bind fun d => (Run.KeepsFiles.lift _).bind fun selection =>
      (Run.KeepsFiles.lift _).bind fun text => (Run.KeepsFiles.print s _).bind fun _ => .pure 0
  case h_5 =>
    refine (Run.KeepsFiles.load _).bind fun d => ?_
    split <;> exact (Run.KeepsFiles.lift _).bind fun text =>
      (Run.KeepsFiles.printLine s _).bind fun _ => .pure 0
  case h_6 =>
    have hline (line : String) : (s.printLine line).KeepsFiles := .printLine s line
    exact (Run.KeepsFiles.forM hline _).bind fun _ => .pure 0

end PolicyAuthoring.CommandLine
