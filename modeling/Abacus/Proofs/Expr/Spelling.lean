import Abacus.Proofs.Expr.FirstFailure
import Abacus.Proofs.Registry.History
/-!
# The spelling of functions

Two trees may be the same but for the case in which the functions of their calls are written (`Respelled`).  Then
they have the same value, or fail alike: only the name that is shown may be spelled otherwise
(`evaluate_of_respelled`).
-/
namespace Abacus

/-! ## Answers that are alike -/

def EvalError.counts : EvalError → Option (Int × Nat)
  | .arityMismatch _ expected actual => some (expected, actual)
  | _                                => none

/-- Two failures are of the same class, and if the formula is refused, of the same kind, with the same counts, and
about the same name but for its case. -/
inductive EvalFailure.Alike : EvalFailure → EvalFailure → Prop
  | refused {e e' : EvalError} (hkind : e.kind = e'.kind) (hcounts : e.counts = e'.counts)
      (hname : lower e.name = lower e'.name) : Alike (.refused e) (.refused e')
  | fault (f : Fault) : Alike (.fault f) (.fault f)
  | misapplied : Alike .misapplied .misapplied

inductive AnswersAlike {α : Type} : Except EvalFailure α → Except EvalFailure α → Prop
  | ok (a : α) : AnswersAlike (.ok a) (.ok a)
  | error {failure failure' : EvalFailure} (h : failure.Alike failure') :
      AnswersAlike (.error failure) (.error failure')

theorem EvalFailure.Alike.refl (failure : EvalFailure) : failure.Alike failure := by
  cases failure with
  | refused e => exact .refused rfl rfl rfl
  | fault f => exact .fault f
  | misapplied => exact .misapplied

namespace AnswersAlike

variable {α β : Type} {answer answer' : Except EvalFailure α}

theorem refl (answer : Except EvalFailure α) : AnswersAlike answer answer := by
  cases answer with
  | ok a => exact .ok a
  | error failure => exact .error (.refl failure)

theorem bind {f g : α → Except EvalFailure β} (h : AnswersAlike answer answer')
    (hnext : ∀ a, AnswersAlike (f a) (g a)) :
    AnswersAlike (answer >>= f) (answer' >>= g) := by
  cases h with
  | ok a => exact hnext a
  | error h => exact .error h

end AnswersAlike

/-- **A call by a name in another case fails alike, or has the same value.** -/
theorem Registry.call_alike (r : Registry) {name name' : List Char} (h : lower name = lower name') (args : List Float) :
    AnswersAlike (r.call name args) (r.call name' args) := by
  have hfind : r.find? name = r.find? name' := by rw [Registry.find?, Registry.find?, h]
  rw [Registry.call, Registry.call, hfind]
  cases r.find? name' with
  | none => exact .error (.refused rfl rfl h)
  | some b =>
    dsimp only
    split
    · exact .refl _
    · exact .error (.refused rfl rfl h)

namespace Expr

/-! ## Trees in another spelling -/

mutual

/-- The trees differ in nothing but the case in which the functions of calls are written. -/
inductive Respelled : Expr → Expr → Prop
  | number (x : Float) : Respelled (.number x) (.number x)
  | constant (k : Constant) : Respelled (.constant k) (.constant k)
  | var (name : List Char) : Respelled (.var name) (.var name)
  | signed {x y : Expr} (s : Sign) : Respelled x y → Respelled (.signed s x) (.signed s y)
  | binary {l l' r r' : Expr} (op : Operator) : Respelled l l' → Respelled r r' →
      Respelled (.binary op l r) (.binary op l' r')
  | call {name name' : List Char} {args args' : List Expr} : lower name = lower name' → AllRespelled args args' →
      Respelled (.call name args) (.call name' args')

inductive AllRespelled : List Expr → List Expr → Prop
  | nil : AllRespelled [] []
  | cons {e e' : Expr} {es es' : List Expr} : Respelled e e' → AllRespelled es es' → AllRespelled (e :: es) (e' :: es')

end

mutual

theorem evaluate_of_respelled {t u : Expr} (r : Registry) (c : Context) :
    Respelled t u → AnswersAlike (t.evaluate r c) (u.evaluate r c)
  | .number x => .refl _
  | .constant k => .refl _
  | .var name => .refl _
  | .signed s h => by
    rw [evaluate, evaluate]
    exact (evaluate_of_respelled r c h).bind fun x => .refl _
  | .binary op hl hr => by
    rw [evaluate, evaluate]
    exact (evaluate_of_respelled r c hl).bind fun x => (evaluate_of_respelled r c hr).bind fun y => .refl _
  -- the arguments come first, so a call by an unknown name fails as they do
  | .call hname hargs => by
    rw [evaluate, evaluate]
    exact (evaluateAll_of_respelled r c hargs).bind fun xs => r.call_alike hname xs

theorem evaluateAll_of_respelled {ts us : List Expr} (r : Registry) (c : Context) :
    AllRespelled ts us → AnswersAlike (evaluateAll r c ts) (evaluateAll r c us)
  | .nil => .refl _
  | .cons h hs => by
    rw [evaluateAll, evaluateAll]
    exact (evaluate_of_respelled r c h).bind fun x => (evaluateAll_of_respelled r c hs).bind fun xs => .refl _

end

/-! ## What has been registered -/

open Registry Registration

/-- **The registry has the latest registration of every name, in lower case, and evaluation goes by it.**  Take any
registrations after those of the standard functions.  A name finds the latest one under it, in any case, and none
only if there is none.  The names that are listed are those of all registrations, in order and each once.  Trees
that differ in nothing but the case of functions have the same value or fail alike; and a call whose arguments have
values has the value of the function that was registered latest, if it takes so many arguments. -/
theorem latest_registration_counts (gs : List Registration) :
    (∀ name b, (standardWith gs).find? name = some b ↔
      ∃ g, IsLatest (Registration.standard ++ gs) name g ∧ b = ⟨lower name, g.arity, g.apply⟩) ∧
    (∀ name, (standardWith gs).find? name = none ↔ ∀ g ∈ Registration.standard ++ gs, lower g.name ≠ lower name) ∧
    (standardWith gs).names.Pairwise (fun s t => textLe s t = true ∧ s ≠ t) ∧
    (∀ name, name ∈ (standardWith gs).names ↔ ∃ g ∈ Registration.standard ++ gs, lower g.name = name) ∧
    (∀ t u, Respelled t u → ∀ c, AnswersAlike (t.evaluate (standardWith gs) c) (u.evaluate (standardWith gs) c)) ∧
    ∀ name args c xs, args.map (evaluate (standardWith gs) c) = xs.map .ok →
      (∀ g, IsLatest (Registration.standard ++ gs) name g → (call name args).evaluate (standardWith gs) c =
        if (xs.length : Int) = g.arity then g.apply xs
        else .error (.refused (.arityMismatch name g.arity xs.length))) ∧
      ((∀ g ∈ Registration.standard ++ gs, lower g.name ≠ lower name) →
        (call name args).evaluate (standardWith gs) c = .error (.refused (.unknownFunction name))) := by
  have hnone (name : List Char) : (standardWith gs).find? name = none ↔
      ∀ g ∈ Registration.standard ++ gs, lower g.name ≠ lower name := by
    rw [find?_standardWith, Option.map_eq_none_iff, latest?_eq_none_iff]
  have hlatest {name : List Char} {g : Registration} (h : IsLatest (Registration.standard ++ gs) name g) :
      (standardWith gs).find? name = some g.builtin := by
    rw [find?_standardWith, latest?_eq_some_iff.2 h, Option.map_some]
  refine ⟨fun name b => ⟨fun h => ?_, ?_⟩, hnone, pairwise_names_standardWith gs, fun name => mem_names_standardWith,
    fun t u h c => evaluate_of_respelled _ c h, fun name args c xs hxs => ⟨fun g hg => ?_, fun hno => ?_⟩⟩
  · rw [find?_standardWith] at h
    obtain ⟨g, hg, rfl⟩ := Option.map_eq_some_iff.1 h
    have hg' := latest?_eq_some_iff.1 hg
    exact ⟨g, hg', by rw [builtin, hg'.named]⟩
  · rintro ⟨g, hg, rfl⟩
    rw [hlatest hg, builtin, hg.named]
  · rw [evaluate_call_of_values hxs, Registry.call, hlatest hg]
    rfl
  · rw [evaluate_call_of_values hxs, Registry.call, (hnone name).2 hno]

/-- A function of one argument, and another of two under its name in another case. -/
def twiceDouble : List Registration :=
  [⟨"double".toList, 1, ofOne fun x => .ok (x + x)⟩, ⟨"Double".toList, 2, fun _ => .error .misapplied⟩]

theorem latest_registration_counts_twiceDouble :
    (∃ b, (standardWith twiceDouble).find? "DOUBLE".toList = some b ∧ b.name = "double".toList ∧ b.arity = 2) ∧
    "double".toList ∈ (standardWith twiceDouble).names ∧
    AnswersAlike ((call "DOUBLE".toList [.number 1]).evaluate (standardWith twiceDouble) [])
      ((call "double".toList [.number 1]).evaluate (standardWith twiceDouble) []) ∧
    (call "DOUBLE".toList [.number 1]).evaluate (standardWith twiceDouble) [] =
      .error (.refused (.arityMismatch "DOUBLE".toList 2 1)) := by
  obtain ⟨hfind, -, -, hnames, hrespelled, hcall⟩ := latest_registration_counts twiceDouble
  have hlower : lower "DOUBLE".toList = lower "double".toList ∧ lower "Double".toList = lower "DOUBLE".toList ∧
      lower "DOUBLE".toList = "double".toList := by decide +kernel
  have hlatest : IsLatest (Registration.standard ++ twiceDouble) "DOUBLE".toList
      ⟨"Double".toList, 2, fun _ => .error .misapplied⟩ :=
    ⟨hlower.2.1, Registration.standard ++ [⟨"double".toList, 1, ofOne fun x => .ok (x + x)⟩], [], rfl, nofun⟩
  refine ⟨⟨_, (hfind _ _).2 ⟨_, hlatest, rfl⟩, hlower.2.2, rfl⟩, (hnames _).2 ?_,
    hrespelled _ _ (.call hlower.1 (.cons (.number 1) .nil)) _, ?_⟩
  · obtain ⟨before, later, hgs, -⟩ := hlatest.last
    exact ⟨_, hgs ▸ List.mem_append_right before List.mem_cons_self, hlower.2.1.trans hlower.2.2⟩
  · have hargs : [number 1].map (evaluate (standardWith twiceDouble) []) = [1].map .ok := rfl
    exact ((hcall _ _ _ _ hargs).1 _ hlatest).trans (if_neg (by decide))

end Expr

end Abacus
