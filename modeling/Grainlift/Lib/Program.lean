/-
  Grainlift.Lib.Program — programs that ask for an operation and go on with its answer.

  `Prog Ans ρ` either is done with a `ρ` or performs an operation `op` and continues with
  the answer, of type `Ans op`; who performs operations, and when, is left open, so one
  program can be run alone (`run`), a step at a time between others, or with a program of
  other operations in the place of each of its own (`interp`). `Act` is a program that can
  fail: its monad stops at the first error, as Rust's `?` does.

  A discipline watches a program from outside: `allows g op` says which operations the
  ghost state `g` permits and `next` moves it past an answer. `D.Follows g p post` says
  that `p`, whatever the answers, performs only what `D` permits and ends in `post`. It is
  read off a program's text once (`follows_bind` and the rules beside it), and then holds
  of every remainder of the program however its operations are interleaved with others'.
-/

namespace Grainlift.Lib

inductive Prog {Op : Type} (Ans : Op → Type) (ρ : Type) where
  | done (r : ρ)
  | call (op : Op) (k : Ans op → Prog Ans ρ)

namespace Prog

variable {Op : Type} {Ans : Op → Type} {ρ τ σ : Type}

def bind : Prog Ans ρ → (ρ → Prog Ans τ) → Prog Ans τ
  | .done r, f => f r
  | .call op k, f => .call op fun a => (k a).bind f

def ask (op : Op) : Prog Ans (Ans op) := .call op .done

/-- The program run alone, its operations performed by `exec`. -/
def run (exec : (op : Op) → σ → Ans op × σ) : Prog Ans ρ → σ → ρ × σ
  | .done r, s => (r, s)
  | .call op k, s => run exec (k (exec op s).1) (exec op s).2

theorem run_bind (exec : (op : Op) → σ → Ans op × σ) (p : Prog Ans ρ) (f : ρ → Prog Ans τ) (s : σ) :
    (p.bind f).run exec s = (f (p.run exec s).1).run exec (p.run exec s).2 := by
  induction p generalizing s with
  | done r => rfl
  | call op k ih => exact ih _ _

@[simp] theorem run_done (exec : (op : Op) → σ → Ans op × σ) (r : ρ) (s : σ) :
    (Prog.done r : Prog Ans ρ).run exec s = (r, s) := rfl

@[simp] theorem run_ask (exec : (op : Op) → σ → Ans op × σ) (op : Op) (s : σ) :
    (ask op : Prog Ans (Ans op)).run exec s = exec op s := rfl

/-- Every operation the program can come to is one of `A`. -/
def Uses (A : Op → Prop) : Prog Ans ρ → Prop
  | .done _ => True
  | .call op k => A op ∧ ∀ a, (k a).Uses A

theorem Uses.bind {A : Op → Prop} {p : Prog Ans ρ} {f : ρ → Prog Ans τ} (hp : p.Uses A) (hf : ∀ r, (f r).Uses A) :
    (p.bind f).Uses A := by
  induction p with
  | done r => exact hf r
  | call op k ih => exact ⟨hp.1, fun a => ih a (hp.2 a)⟩

theorem bind_done (p : Prog Ans ρ) : p.bind .done = p := by
  induction p with
  | done r => rfl
  | call op k ih => exact congrArg (Prog.call op) (funext ih)

theorem bind_assoc {υ : Type} (p : Prog Ans ρ) (f : ρ → Prog Ans τ) (g : τ → Prog Ans υ) :
    (p.bind f).bind g = p.bind fun r => (f r).bind g := by
  induction p with
  | done r => rfl
  | call op k ih => exact congrArg (Prog.call op) (funext ih)

theorem uses_true (p : Prog Ans ρ) : p.Uses fun _ => True := by
  induction p with
  | done r => trivial
  | call op k ih => exact ⟨trivial, ih⟩

/-- The program with each of its operations performed by a program of others. -/
def interp {P : Type} {B : P → Type} (f : (op : Op) → Prog B (Ans op)) : Prog Ans ρ → Prog B ρ
  | .done r => .done r
  | .call op k => (f op).bind fun a => (k a).interp f

section Interp

variable {P : Type} {B : P → Type} (f : (op : Op) → Prog B (Ans op))

@[simp] theorem interp_done (r : ρ) : (Prog.done r : Prog Ans ρ).interp f = .done r := rfl

@[simp] theorem interp_ask (op : Op) : (ask op : Prog Ans (Ans op)).interp f = f op := bind_done (f op)

end Interp

theorem Uses.mono {A B : Op → Prop} (h : ∀ op, A op → B op) {p : Prog Ans ρ} (hp : p.Uses A) : p.Uses B := by
  induction p with
  | done r => trivial
  | call op k ih => exact ⟨h op hp.1, fun a => ih a (hp.2 a)⟩

end Prog

/-- A program that may fail. -/
def Act {Op : Type} (Ans : Op → Type) (ε α : Type) := Prog Ans (Except ε α)

namespace Act

variable {Op : Type} {Ans : Op → Type} {ε δ α β : Type}

def andThen (x : Act Ans ε α) (f : α → Act Ans ε β) : Act Ans ε β :=
  Prog.bind x fun
    | .ok a => f a
    | .error e => .done (.error e)

instance : Monad (Act Ans ε) where
  pure a := .done (.ok a)
  bind := andThen

instance : MonadLift (Except ε) (Act Ans ε) where
  monadLift r := .done r

def fail (e : ε) : Act Ans ε α := .done (.error e)

/-- `if let Err(e) = x { f(e) }`, the value kept otherwise. -/
def recover (x : Act Ans ε α) (f : ε → Act Ans δ α) : Act Ans δ α :=
  Prog.bind x fun
    | .ok a => .done (.ok a)
    | .error e => f e

def mapErr (f : ε → δ) (x : Act Ans ε α) : Act Ans δ α := x.recover fun e => fail (f e)

/-- `let _ = x;` -/
def ignore (x : Act Ans ε α) : Act Ans δ Unit := Prog.bind x fun _ => .done (.ok ())

/-- Go on with a value, or stop with the error seen through `g`. -/
def proceed {σ : Type} (g : ε → δ) (r : Except ε α × σ) (f : α → σ → Except δ β × σ) : Except δ β × σ :=
  match r with
  | (.ok a, s) => f a s
  | (.error e, s) => (.error (g e), s)

@[simp] theorem proceed_ok {σ : Type} (g : ε → δ) (a : α) (s : σ) (f : α → σ → Except δ β × σ) :
    proceed g (.ok a, s) f = f a s := rfl

@[simp] theorem proceed_error {σ : Type} (g : ε → δ) (e : ε) (s : σ) (f : α → σ → Except δ β × σ) :
    proceed g (.error e, s) f = (.error (g e), s) := rfl

/-- Keep a value, or go on with the error. -/
def rescue {σ : Type} (r : Except ε α × σ) (f : ε → σ → Except δ α × σ) : Except δ α × σ :=
  match r with
  | (.ok a, s) => (.ok a, s)
  | (.error e, s) => f e s

@[simp] theorem rescue_ok {σ : Type} (a : α) (s : σ) (f : ε → σ → Except δ α × σ) :
    rescue (.ok a, s) f = (.ok a, s) := rfl

@[simp] theorem rescue_error {σ : Type} (e : ε) (s : σ) (f : ε → σ → Except δ α × σ) :
    rescue (.error e, s) f = f e s := rfl

variable {σ : Type} (exec : (op : Op) → σ → Ans op × σ) (s : σ)

/-- A program run alone stops at its first error. -/
theorem run_bind (x : Act Ans ε α) (f : α → Act Ans ε β) :
    Prog.run exec (x >>= f : Act Ans ε β) s = proceed id (Prog.run exec x s) fun a s' => Prog.run exec (f a) s' := by
  refine (Prog.run_bind exec x _ s).trans ?_
  generalize Prog.run exec x s = r
  obtain ⟨_ | a, s'⟩ := r <;> rfl

theorem run_recover (x : Act Ans ε α) (f : ε → Act Ans δ α) :
    Prog.run exec (x.recover f) s = rescue (Prog.run exec x s) fun e s' => Prog.run exec (f e) s' := by
  refine (Prog.run_bind exec x _ s).trans ?_
  generalize Prog.run exec x s = r
  obtain ⟨_ | a, s'⟩ := r <;> rfl

/-- A step whose error is seen through `g`. -/
theorem run_mapErr_bind (g : ε → δ) (x : Act Ans ε α) (f : α → Act Ans δ β) :
    Prog.run exec (x.mapErr g >>= f : Act Ans δ β) s =
      proceed g (Prog.run exec x s) fun a s' => Prog.run exec (f a) s' := by
  rw [run_bind, mapErr, run_recover]
  generalize Prog.run exec x s = r
  obtain ⟨_ | a, s'⟩ := r <;> rfl

/-- Two steps that need no operation are one. -/
theorem lift_seq (x : Except ε α) (f : α → Except ε β) :
    (liftM x >>= fun a => liftM (f a) : Act Ans ε β) = liftM (x >>= f) := by
  cases x <;> rfl

/-- Steps in sequence may be put together. -/
theorem seq_assoc {γ : Type} (x : Act Ans ε α) (f : α → Act Ans ε β) (g : β → Act Ans ε γ) :
    (x >>= f >>= g : Act Ans ε γ) = x >>= fun a => f a >>= g := by
  refine (Prog.bind_assoc x _ _).trans (congrArg (Prog.bind x) (funext fun r => ?_))
  cases r <;> rfl

/-- An error seen through `g` is seen so at every step. -/
theorem mapErr_seq (g : ε → δ) (x : Act Ans ε α) (f : α → Act Ans ε β) :
    (x >>= f : Act Ans ε β).mapErr g = x.mapErr g >>= fun a => (f a).mapErr g := by
  refine (Prog.bind_assoc x _ _).trans (Eq.trans ?_ (Prog.bind_assoc x _ _).symm)
  refine congrArg (Prog.bind x) (funext fun r => ?_)
  cases r <;> rfl

theorem run_ignore (x : Act Ans ε α) : Prog.run exec (x.ignore : Act Ans δ Unit) s = (.ok (), (Prog.run exec x s).2) :=
  Prog.run_bind exec x _ s

/-- `Uses` along the steps of a program that may fail. -/
theorem uses_bind {A : Op → Prop} {x : Act Ans ε α} {f : α → Act Ans ε β} (hx : Prog.Uses A x)
    (hf : ∀ a, Prog.Uses A (f a)) : Prog.Uses A (x >>= f : Act Ans ε β) := by
  apply Prog.Uses.bind hx
  intro r
  cases r with
  | ok a => exact hf a
  | error e => trivial

theorem uses_recover {A : Op → Prop} {x : Act Ans ε α} {f : ε → Act Ans δ α} (hx : Prog.Uses A x)
    (hf : ∀ e, Prog.Uses A (f e)) : Prog.Uses A (x.recover f) := by
  apply Prog.Uses.bind hx
  intro r
  cases r with
  | ok a => trivial
  | error e => exact hf e

theorem uses_mapErr {A : Op → Prop} {x : Act Ans ε α} (g : ε → δ) (hx : Prog.Uses A x) : Prog.Uses A (x.mapErr g) :=
  uses_recover hx fun _ => trivial

theorem uses_ignore {A : Op → Prop} {x : Act Ans ε α} (hx : Prog.Uses A x) : Prog.Uses A (x.ignore : Act Ans δ Unit) :=
  Prog.Uses.bind hx fun _ => trivial

end Act

/-! ## Disciplines -/

structure Discipline {Op : Type} (Ans : Op → Type) (Γ : Type) where
  allows : Γ → Op → Prop
  next : Γ → (op : Op) → Ans op → Γ

namespace Discipline

variable {Op : Type} {Ans : Op → Type} {Γ ρ τ : Type} (D : Discipline Ans Γ)

/-- The ghost state after a list of operations and their answers. -/
def after (g : Γ) (trail : List ((op : Op) × Ans op)) : Γ := trail.foldl (fun g n => D.next g n.1 n.2) g

@[simp] theorem after_nil (g : Γ) : D.after g [] = g := rfl

@[simp] theorem after_snoc (g : Γ) (trail : List ((op : Op) × Ans op)) (op : Op) (a : Ans op) :
    D.after g (trail ++ [⟨op, a⟩]) = D.next (D.after g trail) op a := by
  simp [after]

/-- From the ghost state `g` the program `p` keeps to `D` and ends in `post`. -/
def Follows (g : Γ) (p : Prog Ans ρ) (post : Γ → ρ → Prop) : Prop :=
  match p with
  | .done r => post g r
  | .call op k => D.allows g op ∧ ∀ a, Follows (D.next g op a) (k a) post

variable {D} {post : Γ → τ → Prop} {g : Γ}

@[simp] theorem follows_done {r : τ} : D.Follows g (.done r) post ↔ post g r := Iff.rfl

@[simp] theorem follows_call {op : Op} {k : Ans op → Prog Ans τ} :
    D.Follows g (.call op k) post ↔ D.allows g op ∧ ∀ a, D.Follows (D.next g op a) (k a) post := Iff.rfl

@[simp] theorem follows_ask {op : Op} {post : Γ → Ans op → Prop} :
    D.Follows g (Prog.ask op) post ↔ D.allows g op ∧ ∀ a, post (D.next g op a) a := Iff.rfl

@[simp] theorem follows_bind {p : Prog Ans ρ} {f : ρ → Prog Ans τ} :
    D.Follows g (p.bind f) post ↔ D.Follows g p fun g r => D.Follows g (f r) post := by
  induction p generalizing g with
  | done r => exact Iff.rfl
  | call op k ih => exact and_congr_right fun _ => forall_congr' fun a => ih a

theorem Follows.mono {post' : Γ → τ → Prop} {p : Prog Ans τ} (h : D.Follows g p post)
    (hp : ∀ g r, post g r → post' g r) : D.Follows g p post' := by
  induction p generalizing g with
  | done r => exact hp _ _ h
  | call op k ih => exact ⟨h.1, fun a => ih a (h.2 a)⟩

/-- Operations that are always permitted and move nothing can be passed over. -/
theorem Follows.of_uses {A : Op → Prop} {p : Prog Ans τ} (hp : p.Uses A)
    (hA : ∀ op, A op → D.allows g op ∧ ∀ a, D.next g op a = g) (hpost : ∀ r, post g r) : D.Follows g p post := by
  induction p with
  | done r => exact hpost r
  | call op k ih =>
    refine ⟨(hA op hp.1).1, ?_⟩
    intro a
    rw [(hA op hp.1).2 a]
    exact ih a (hp.2 a)

/-- A program whose every operation is performed by a program that leaves the ghost state
    as it is. -/
theorem follows_interp {P : Type} {B : P → Type} {E : Discipline B Γ} {f : (op : Op) → Prog B (Ans op)} {A : Op → Prop}
    (hf : ∀ op, A op → E.Follows g (f op) fun g' _ => g' = g) {p : Prog Ans τ} (hp : p.Uses A) :
    E.Follows g (p.interp f) fun g' _ => g' = g := by
  induction p with
  | done r => exact rfl
  | call op k ih =>
    refine follows_bind.mpr ((hf op hp.1).mono fun g' a hg => ?_)
    subst hg
    exact ih a (hp.2 a)

/-- What is left of `p` after the answers in `trail`. -/
inductive Ran (p : Prog Ans ρ) : List ((op : Op) × Ans op) → Prog Ans ρ → Prop
  | start : Ran p [] p
  | answer {trail : List ((op : Op) × Ans op)} {op : Op} {k : Ans op → Prog Ans ρ} (a : Ans op) :
      Ran p trail (.call op k) → Ran p (trail ++ [⟨op, a⟩]) (k a)

/-- At any point of the trail, the program stood before the next operation in it. -/
theorem Ran.at {p q : Prog Ans ρ} {trail before rest : List ((op : Op) × Ans op)} {n : (op : Op) × Ans op}
    (h : Ran p trail q) (heq : trail = before ++ n :: rest) : ∃ k, Ran p before (.call n.1 k) := by
  induction h generalizing rest with
  | start => cases before <;> cases heq
  | @answer trail op k a hr ih =>
    rcases List.eq_nil_or_concat rest with rfl | ⟨rest, m, rfl⟩
    · obtain ⟨rfl, hn⟩ := List.append_inj' heq rfl
      cases hn
      exact ⟨k, hr⟩
    · rw [List.concat_eq_append, ← List.cons_append, ← List.append_assoc] at heq
      exact ih (List.append_inj' heq rfl).1

/-- What the program is followed by comes after it. -/
theorem Ran.bind {p q : Prog Ans ρ} {trail : List ((op : Op) × Ans op)} (h : Ran p trail q) (f : ρ → Prog Ans τ) :
    Ran (p.bind f) trail (q.bind f) := by
  induction h with
  | start => exact .start
  | answer a _ ih => exact ih.answer a

/-- A program follows its discipline to the end. -/
theorem Follows.ran {p q : Prog Ans τ} (h : D.Follows g p post) {trail : List ((op : Op) × Ans op)}
    (hr : Ran p trail q) :
    D.Follows (D.after g trail) q post := by
  induction hr with
  | start => exact h
  | answer a _ ih =>
    rw [after_snoc]
    exact ih.2 a

/-- Everything is permitted and written down: what holds of a program's end by what it was
    answered. -/
def recorder : Discipline Ans (List ((op : Op) × Ans op)) := ⟨fun _ _ => True, fun trail op a => trail ++ [⟨op, a⟩]⟩

@[simp] theorem recorder_allows (trail : List ((op : Op) × Ans op)) (op : Op) :
    (recorder : Discipline Ans _).allows trail op := trivial

@[simp] theorem recorder_next (trail : List ((op : Op) × Ans op)) (op : Op) (a : Ans op) :
    recorder.next trail op a = trail ++ [⟨op, a⟩] := rfl

theorem after_recorder (g trail : List ((op : Op) × Ans op)) : recorder.after g trail = g ++ trail := by
  induction trail generalizing g with
  | nil => exact (List.append_nil g).symm
  | cons n trail ih => exact (ih _).trans (List.append_assoc g [n] trail)

/-- A program that may do anything. -/
theorem recorder_follows {p : Prog Ans τ} {post : List ((op : Op) × Ans op) → τ → Prop} (h : ∀ trail r, post trail r)
    (trail : List ((op : Op) × Ans op)) : recorder.Follows trail p post := by
  induction p generalizing trail with
  | done r => exact h trail r
  | call op k ih => exact ⟨trivial, fun a => ih a _⟩

theorem ran_recorded {p : Prog Ans τ} {post : List ((op : Op) × Ans op) → τ → Prop} (h : recorder.Follows [] p post)
    {trail : List ((op : Op) × Ans op)} {r : τ} (hr : Ran p trail (.done r)) : post trail r := by
  have hpost := h.ran hr
  rwa [after_recorder, List.nil_append] at hpost

/-! The rules for programs that may fail: what must hold after a step for the rest to
    follow the discipline. -/

section Act

variable {ε δ α β : Type}

/-- After a step of a sequence: its value goes to `f`, its error ends the program. -/
def Onward (D : Discipline Ans Γ) (post : Γ → Except ε β → Prop) (f : α → Act Ans ε β) (g : Γ) : Except ε α → Prop
  | .ok a => D.Follows g (f a) post
  | .error e => post g (.error e)

/-- After a step whose error goes to `f`. -/
def Rescued (D : Discipline Ans Γ) (post : Γ → Except δ α → Prop) (f : ε → Act Ans δ α) (g : Γ) : Except ε α → Prop
  | .ok a => post g (.ok a)
  | .error e => D.Follows g (f e) post

@[simp] theorem onward_ok {post : Γ → Except ε β → Prop} {f : α → Act Ans ε β} {a : α} :
    Onward D post f g (.ok a) ↔ D.Follows g (f a) post := Iff.rfl

@[simp] theorem onward_error {post : Γ → Except ε β → Prop} {f : α → Act Ans ε β} {e : ε} :
    Onward D post f g (.error e) ↔ post g (.error e) := Iff.rfl

@[simp] theorem rescued_ok {post : Γ → Except δ α → Prop} {f : ε → Act Ans δ α} {a : α} :
    Rescued D post f g (.ok a) ↔ post g (.ok a) := Iff.rfl

@[simp] theorem rescued_error {post : Γ → Except δ α → Prop} {f : ε → Act Ans δ α} {e : ε} :
    Rescued D post f g (.error e) ↔ D.Follows g (f e) post := Iff.rfl

@[simp] theorem follows_pure {post : Γ → Except ε α → Prop} {a : α} :
    D.Follows g (pure a : Act Ans ε α) post ↔ post g (.ok a) := Iff.rfl

@[simp] theorem follows_fail {post : Γ → Except ε α → Prop} {e : ε} :
    D.Follows g (Act.fail e : Act Ans ε α) post ↔ post g (.error e) := Iff.rfl

@[simp] theorem follows_lift {post : Γ → Except ε α → Prop} {r : Except ε α} :
    D.Follows g (liftM r : Act Ans ε α) post ↔ post g r := Iff.rfl

@[simp] theorem follows_seq {post : Γ → Except ε β → Prop} {x : Act Ans ε α} {f : α → Act Ans ε β} :
    D.Follows g (x >>= f : Act Ans ε β) post ↔ D.Follows g x (Onward D post f) := by
  refine follows_bind.trans ⟨fun h => h.mono fun g r hr => ?_, fun h => h.mono fun g r hr => ?_⟩ <;>
    cases r <;> exact hr

@[simp] theorem follows_recover {post : Γ → Except δ α → Prop} {x : Act Ans ε α} {f : ε → Act Ans δ α} :
    D.Follows g (x.recover f) post ↔ D.Follows g x (Rescued D post f) := by
  refine follows_bind.trans ⟨fun h => h.mono fun g r hr => ?_, fun h => h.mono fun g r hr => ?_⟩ <;>
    cases r <;> exact hr

@[simp] theorem mapError_ok {a : α} {f : ε → δ} : Except.mapError f (.ok a : Except ε α) = .ok a := rfl

@[simp] theorem mapError_error {e : ε} {f : ε → δ} : Except.mapError f (.error e : Except ε α) = .error (f e) := rfl

@[simp] theorem follows_mapErr {post : Γ → Except δ α → Prop} {x : Act Ans ε α} {f : ε → δ} :
    D.Follows g (x.mapErr f) post ↔ D.Follows g x fun g r => post g (r.mapError f) := by
  refine follows_recover.trans ⟨fun h => h.mono fun g r hr => ?_, fun h => h.mono fun g r hr => ?_⟩ <;>
    cases r <;> exact hr

@[simp] theorem follows_ignore {post : Γ → Except δ Unit → Prop} {x : Act Ans ε α} :
    D.Follows g (x.ignore) post ↔ D.Follows g x fun g _ => post g (.ok ()) := follows_bind

end Act

end Discipline

end Grainlift.Lib
