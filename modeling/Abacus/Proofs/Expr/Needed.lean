import Abacus.Expr.Value
import Abacus.Proofs.Expr.Parts
/-!
# What an evaluation needs

An evaluation looks up the variables of a formula from left to right, functions and numbers of arguments come after
them, and it goes on only while they have values.  So its answer tells which is the first of them without one
(`reveals_evaluate`): none if there is a value, the one that is complained about if a variable is.  Nothing else of a
context is looked at (`evaluate_congr`).
-/
namespace Abacus

/-! ## Functions that know no variables -/

def Builtin.IsClosed (b : Builtin) : Prop :=
  ∀ args name, b.apply args ≠ .error (.refused (.unknownVariable name))

/-- No function refuses its arguments for want of a variable. -/
def Registry.IsClosed (r : Registry) : Prop := ∀ b ∈ r.builtins, b.IsClosed

theorem isClosed_ofOne {name : List Char} {arity : Int} {f : Float → Except EvalFailure Float}
    (h : ∀ x n, f x ≠ .error (.refused (.unknownVariable n))) : Builtin.IsClosed ⟨name, arity, ofOne f⟩ := by
  intro args n
  rcases args with _ | ⟨x, _ | ⟨y, args⟩⟩
  · nofun
  · exact h x n
  · nofun

theorem liftFault_ne (answer : Except Fault Float) (e : EvalError) : liftFault answer ≠ .error (.refused e) := by
  cases answer <;> nofun

theorem screened_ne {p : Prop} [Decidable p] (e : DomainError) (answer : Except Fault Float) (name : List Char) :
    (if p then .error (.refused (.domain e)) else liftFault answer) ≠ .error (.refused (.unknownVariable name)) := by
  split
  · nofun
  · exact liftFault_ne _ _

theorem Standard.clamp_ne (args : List Float) (name : List Char) :
    clamp args ≠ .error (.refused (.unknownVariable name)) := by
  rw [clamp.eq_def]
  split
  · split
    · nofun
    split <;> nofun
  · nofun

theorem Registry.isClosed_standard : Registry.standard.IsClosed := by
  intro b hb
  simp only [Registry.standard, List.mem_cons, List.not_mem_nil, or_false] at hb
  obtain rfl | rfl | rfl | rfl | rfl | rfl | rfl := hb
  · exact isClosed_ofOne fun x n => liftFault_ne _ _
  · exact isClosed_ofOne fun x n => liftFault_ne _ _
  · exact isClosed_ofOne fun x n => liftFault_ne _ _
  · exact isClosed_ofOne fun x n => screened_ne _ _ n
  · exact isClosed_ofOne fun x n => screened_ne _ _ n
  · exact isClosed_ofOne fun x n => nofun
  · exact Standard.clamp_ne

theorem Registry.IsClosed.call_ne {r : Registry} (h : r.IsClosed) (function : List Char) (args : List Float)
    (name : List Char) : r.call function args ≠ .error (.refused (.unknownVariable name)) := by
  rw [Registry.call]
  split
  · nofun
  · rename_i b hfind
    split
    · exact h b (List.mem_of_find?_eq_some hfind) args name
    · nofun

/-! ## The first name without a value -/

theorem find?_eraseDups {α : Type} [BEq α] [LawfulBEq α] (p : α → Bool) :
    ∀ xs : List α, xs.eraseDups.find? p = xs.find? p
  | []      => by rw [List.eraseDups_nil]
  | x :: xs => by
    have hlt : (xs.filter fun y => !y == x).length < xs.length + 1 := Nat.lt_succ_of_le (List.length_filter_le _ _)
    rw [List.eraseDups_cons, List.find?_cons, List.find?_cons, find?_eraseDups p (xs.filter fun y => !y == x),
      List.find?_filter]
    cases hx : p x with
    | true => rfl
    | false =>
      -- what is left out equals `x`, which `p` does not hold of
      refine congrArg (List.find? · xs) (funext fun y => ?_)
      by_cases hy : y = x
      · simp [hy, hx]
      · simp [hy]
termination_by xs => xs.length

namespace Expr

def firstUnbound? (c : Context) (names : List (List Char)) : Option (List Char) :=
  names.find? fun name => (c.lookup name).isNone

variable {c c' : Context}

theorem firstUnbound?_eq_none_iff {names : List (List Char)} :
    firstUnbound? c names = none ↔ ∀ name ∈ names, (c.lookup name).isSome := by
  rw [firstUnbound?, List.find?_eq_none]
  simp [Option.isSome_iff_ne_none]

/-- **What an answer reveals about names**: with a value, all of them have one; and a variable that is complained about
is the first that has none. -/
structure Reveals (c : Context) (names : List (List Char)) {α : Type} (answer : Except EvalFailure α) : Prop where
  value : ∀ a, answer = .ok a → firstUnbound? c names = none
  unknown : ∀ name, answer = .error (.refused (.unknownVariable name)) → firstUnbound? c names = some name

namespace Reveals

variable {α β : Type} {ms ns : List (List Char)} {answer : Except EvalFailure α}

theorem of_ne (h : ∀ name, answer ≠ .error (.refused (.unknownVariable name))) : Reveals c [] answer :=
  ⟨fun _ _ => rfl, fun name hname => absurd hname (h name)⟩

theorem ok (a : α) : Reveals c [] (.ok a : Except EvalFailure α) := .of_ne fun _ => nofun

/-- **One step after another.**  The names of the second come into play when those of the first have values. -/
theorem bind {f : α → Except EvalFailure β} (h : Reveals c ms answer) (hf : ∀ a, Reveals c ns (f a)) :
    Reveals c (ms ++ ns) (answer >>= f) := by
  cases answer with
  | error failure =>
    refine ⟨fun b hb => (by cases hb), fun name hname => ?_⟩
    cases hname
    rw [firstUnbound?, List.find?_append, ← firstUnbound?, h.unknown name rfl]
    rfl
  | ok a =>
    have happend : firstUnbound? c (ms ++ ns) = firstUnbound? c ns := by
      rw [firstUnbound?, List.find?_append, ← firstUnbound?, h.value a rfl]
      rfl
    exact ⟨fun b hb => happend.trans ((hf a).value b hb), fun name hname => happend.trans ((hf a).unknown name hname)⟩

theorem bind_of_ne {f : α → Except EvalFailure β} (h : Reveals c ms answer)
    (hf : ∀ a name, f a ≠ .error (.refused (.unknownVariable name))) : Reveals c ms (answer >>= f) := by
  have hbind := h.bind fun a => Reveals.of_ne (hf a)
  rwa [List.append_nil] at hbind

end Reveals

theorem reveals_evaluateAll {r : Registry} {args : List Expr}
    (h : ∀ a ∈ args, Reveals c a.mentions (a.evaluate r c)) :
    Reveals c (args.flatMap mentions) (evaluateAll r c args) := by
  induction args with
  | nil => exact .ok []
  | cons a args ih =>
    rw [evaluateAll, List.flatMap_cons]
    refine (h a List.mem_cons_self).bind fun x => ?_
    exact (ih fun b hb => h b (List.mem_cons_of_mem a hb)).bind_of_ne fun _ _ => nofun

/-- **The answer of an evaluation tells of the variables of the formula**, whatever functions are called. -/
theorem reveals_evaluate {r : Registry} (hr : r.IsClosed) (c : Context) (e : Expr) :
    Reveals c e.mentions (e.evaluate r c) := by
  induction e using inductionOn with
  | number x => rw [evaluate]; exact .ok x
  | constant k => rw [evaluate]; exact .ok _
  | var name =>
    have hfirst : firstUnbound? c (var name).mentions = if (c.lookup name).isNone then some name else none := by
      show firstUnbound? c [name] = _
      rw [firstUnbound?, List.find?_singleton]
    rw [evaluate]
    split
    · rename_i x hx
      exact ⟨fun _ _ => by rw [hfirst, hx]; rfl, fun _ h => (by cases h)⟩
    · rename_i hnone
      refine ⟨fun _ h => (by cases h), fun n h => ?_⟩
      cases h
      rw [hfirst, hnone]
      rfl
  | signed s x hx =>
    rw [evaluate, mentions_signed]
    exact hx.bind_of_ne fun _ _ => nofun
  | binary op l r' hl hright =>
    rw [evaluate, mentions_binary]
    exact hl.bind fun x => hright.bind_of_ne fun y name => liftFault_ne _ _
  | call name args hargs =>
    rw [evaluate, mentions_call]
    exact (reveals_evaluateAll hargs).bind_of_ne fun xs n => hr.call_ne name xs n

theorem evaluateAll_congr {r : Registry} {args : List Expr} (h : ∀ a ∈ args, a.evaluate r c = a.evaluate r c') :
    evaluateAll r c args = evaluateAll r c' args := by
  induction args with
  | nil => rfl
  | cons a args ih =>
    rw [evaluateAll, evaluateAll, h a List.mem_cons_self, ih fun b hb => h b (List.mem_cons_of_mem a hb)]

theorem evaluate_congr (r : Registry) {e : Expr} (h : ∀ name ∈ e.mentions, c.lookup name = c'.lookup name) :
    e.evaluate r c = e.evaluate r c' := by
  induction e using inductionOn with
  | number x => rfl
  | constant k => rfl
  | var name =>
    have hname : c.lookup name = c'.lookup name := h name List.mem_cons_self
    rw [evaluate, evaluate, hname]
  | signed s x hx =>
    rw [mentions_signed] at h
    rw [evaluate, evaluate, hx h]
  | binary op l r' hl hr =>
    rw [mentions_binary, List.forall_mem_append] at h
    rw [evaluate, evaluate, hl h.1, hr h.2]
  | call name args hargs =>
    rw [mentions_call, List.forall_mem_flatMap] at h
    rw [evaluate, evaluate, evaluateAll_congr fun a ha => hargs a ha (h a ha)]

/-- **The free names are what an evaluation needs**, with the standard functions and any others that know no variables.
Contexts with the same values for them give the same answer; if they all have values, no variable is complained about;
if one has none, there is no value; and a variable that is complained about is the first of them without a value.  The
names of constants are not among them in a formula that was parsed. -/
theorem evaluate_needs_names :
    Registry.standard.IsClosed ∧ ∀ r : Registry, r.IsClosed → ∀ (e : Expr) (c c' : Context),
      ((∀ name ∈ e.names, ∃ x, c.lookup name = some x ∧ c'.lookup name = some x) →
        e.evaluate r c = e.evaluate r c') ∧
      ((∀ name ∈ e.names, (c.lookup name).isSome) →
        ∀ name, e.evaluate r c ≠ .error (.refused (.unknownVariable name))) ∧
      ((∃ name ∈ e.names, c.lookup name = none) → ∀ x, e.evaluate r c ≠ .ok x) ∧
      (∀ name, e.evaluate r c = .error (.refused (.unknownVariable name)) →
        e.names.find? (fun n => (c.lookup n).isNone) = some name) ∧
      (∀ text, parse text = .ok e → ∀ k : Constant, k.name ∉ e.names) := by
  refine ⟨Registry.isClosed_standard, fun r hr e c c' => ?_⟩
  have hreveals : Reveals c e.names (e.evaluate r c) := by
    obtain ⟨hvalue, hunknown⟩ := reveals_evaluate hr c e
    rw [firstUnbound?, ← find?_eraseDups, ← names_eq_eraseDups] at hvalue hunknown
    exact ⟨hvalue, hunknown⟩
  refine ⟨fun hsame => ?_, fun hall name hname => ?_, ?_, hreveals.unknown,
    fun text hparse k hk => (isName_of_mem_names hparse hk).2 k rfl⟩
  · refine evaluate_congr r fun name hname => ?_
    obtain ⟨x, hx, hx'⟩ := hsame name (mem_names.2 hname)
    rw [hx, hx']
  · have hsome := hreveals.unknown name hname
    rw [firstUnbound?_eq_none_iff.2 hall] at hsome
    cases hsome
  · rintro ⟨name, hmem, hnone⟩ x hx
    have hbound := firstUnbound?_eq_none_iff.1 (hreveals.value x hx) name hmem
    rw [hnone] at hbound
    cases hbound

/-- `a + f(b, a)`, of which there is no function `f`. -/
def calledBeforeKnown : Expr := .binary .add (.var ['a']) (.call ['f'] [.var ['b'], .var ['a']])

/-- A variable that is missing is found before the function that is missing. -/
theorem evaluate_needs_names_calledBeforeKnown :
    calledBeforeKnown.names = [['a'], ['b']] ∧
    calledBeforeKnown.evaluate .standard [(['a'], 1)] = .error (.refused (.unknownVariable ['b'])) ∧
    calledBeforeKnown.names.find? (fun n => (List.lookup n [(['a'], (1 : Float))]).isNone) = some ['b'] ∧
    (∀ x, calledBeforeKnown.evaluate .standard [(['a'], 1)] ≠ .ok x) ∧
    (∀ name,
      calledBeforeKnown.evaluate .standard [(['b'], 2), (['a'], 1)] ≠ .error (.refused (.unknownVariable name))) ∧
    calledBeforeKnown.evaluate .standard [(['b'], 2), (['a'], 1)] =
      calledBeforeKnown.evaluate .standard [("pi".toList, 3), (['a'], 1), (['b'], 2)] := by
  obtain ⟨hclosed, hall⟩ := evaluate_needs_names
  have hnames : calledBeforeKnown.names = [['a'], ['b']] := by decide
  have hmissing : calledBeforeKnown.evaluate .standard [(['a'], 1)] = .error (.refused (.unknownVariable ['b'])) := rfl
  obtain ⟨-, -, hnone, hfirst, -⟩ := hall .standard hclosed calledBeforeKnown [(['a'], 1)] []
  obtain ⟨hsame, hknown, -⟩ := hall .standard hclosed calledBeforeKnown [(['b'], 2), (['a'], 1)]
    [("pi".toList, 3), (['a'], 1), (['b'], 2)]
  rw [hnames] at hnone hsame hknown
  refine ⟨hnames, hmissing, hfirst _ hmissing, hnone ⟨['b'], by simp, by decide⟩, hknown (by decide), hsame ?_⟩
  simp only [List.forall_mem_cons]
  exact ⟨⟨1, rfl, rfl⟩, ⟨2, rfl, rfl⟩, List.forall_mem_nil _⟩

end Expr
end Abacus
