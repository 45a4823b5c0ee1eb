import Abacus.Console.Run
import Abacus.Proofs.Expr.Parts
import Abacus.Proofs.Token.Cut
/-!
# Values on the command line

A command line may give a formula's names their values.  An item that is written for a name is read back as that
name and value (`readOverride_item`), so the items of several names come to binding the names in turn
(`readOverrides_items`).  The arguments that put the items and the formula together ask for that evaluation, also
for a formula that looks like an option (`readEval?_evalArgs`); and where the prompt can be opened, the same formula
can be evaluated under the same settings (`prepare_eval`).
-/
namespace Abacus

/-! ## Names -/

theorem isAlphanumeric_of_isName {name : List Char} (h : isName name = true) : ∀ c ∈ name, isAlphanumeric c = true := by
  cases name with
  | nil => exact List.forall_mem_nil _
  | cons c cs =>
    rw [isName, Bool.and_eq_true, List.all_eq_true] at h
    exact List.forall_mem_cons.2 ⟨by rw [isAlphanumeric, h.1, Bool.true_or], h.2⟩

/-! ## Items -/

theorem splitAtFirst_append {c : Char} {before : List Char} (h : c ∉ before) (after : List Char) :
    splitAtFirst c (before ++ c :: after) = some (before, after) := by
  induction before with
  | nil => exact if_pos rfl
  | cons d ds ih =>
    obtain ⟨hd, hds⟩ := not_or.1 (mt List.mem_cons.2 h)
    rw [List.cons_append, splitAtFirst, if_neg (Ne.symm hd), ih hds]
    rfl

def overrideItem (given : List Char × List Char) : List Char := given.1 ++ '=' :: given.2

/-- Reads values for names in turn.  The first value that is no number is answered with its name. -/
def bindValues (read : List Char → Option Float) (c : Context) :
    List (List Char × List Char) → Except (List Char × List Char) Context
  | []             => .ok c
  | given :: more =>
    match read given.2 with
    | some x => bindValues read (Assoc.set given.1 x c) more
    | none   => .error given

/-- **An item reads as the name and the value that it was written for.** -/
theorem readOverride_item {given : List Char × List Char} (hname : isName given.1 = true) :
    readOverride (overrideItem given) =
      match readDouble? given.2 with
      | some x => .ok (given.1, x)
      | none   => .error (.notANumeral given.1 given.2) := by
  have hequals : '=' ∉ given.1 := by
    intro hmem
    have hsign : isAlphanumeric '=' = false := by decide +kernel
    rw [isAlphanumeric_of_isName hname _ hmem] at hsign
    cases hsign
  have hstrip : strip given.1 = given.1 := trim_eq_self (isBlank_of_isName hname)
  cases hread : readDouble? given.2 <;>
    simp only [readOverride, overrideItem, splitAtFirst_append hequals, hread, hstrip]

theorem readOverrides_items {given : List (List Char × List Char)} (hnames : ∀ g ∈ given, isName g.1 = true)
    (c : Context) : readOverrides c (given.map overrideItem) =
      (bindValues readDouble? c given).mapError fun g => .notANumeral g.1 g.2 := by
  induction given generalizing c with
  | nil => rfl
  | cons first more ih =>
    obtain ⟨hfirst, hmore⟩ := List.forall_mem_cons.1 hnames
    rw [List.map_cons, readOverrides, readOverride_item hfirst, bindValues]
    cases readDouble? first.2 with
    | none => rfl
    | some x => exact ih hmore _

namespace Console

open Arguments

/-! ## Arguments -/

def setArgs (given : List (List Char × List Char)) : List (List Char) :=
  given.flatMap fun g => ["--set".toList, overrideItem g]

/-- The arguments that ask for a formula with these values.  One that looks like an option comes last, after two
hyphens. -/
def evalArgs (formula : List Char) (given : List (List Char × List Char)) : List (List Char) :=
  if isOptionLike formula then setArgs given ++ [['-', '-'], formula] else formula :: setArgs given

theorem scan?_setArgs (given : List (List Char × List Char)) (rest : List (List Char)) :
    scan? Command.evalSpecs true (setArgs given ++ rest) = (scan? Command.evalSpecs true rest).map fun a =>
      ⟨given.map (fun g => ("--set".toList, some (overrideItem g))) ++ a.options, a.words⟩ := by
  induction given with
  | nil => exact (Option.map_id_apply).symm
  | cons first more ih =>
    have hscan : scan? Command.evalSpecs true (setArgs (first :: more) ++ rest) =
        (scan? Command.evalSpecs true (setArgs more ++ rest)).map
          (addOption "--set".toList (some (overrideItem first))) := rfl
    rw [hscan, ih, Option.map_map]
    rfl

theorem values_setArgs (given : List (List Char × List Char)) (words : List (List Char)) :
    (Arguments.mk (given.map fun g => ("--set".toList, some (overrideItem g))) words).values "--set".toList =
      given.map overrideItem := by
  rw [Arguments.values, List.filterMap_map]
  exact congrFun List.filterMap_eq_map given

theorem has_setArgs (given : List (List Char × List Char)) (words : List (List Char)) :
    (Arguments.mk (given.map fun g => ("--set".toList, some (overrideItem g))) words).has "--json".toList = false := by
  rw [Arguments.has, List.any_map]
  exact List.any_eq_false.2 fun g _ => Bool.eq_false_iff.1 rfl

theorem readEval?_evalArgs (formula : List Char) (given : List (List Char × List Char)) :
    Command.readEval? (evalArgs formula given) = some (.eval formula (given.map overrideItem) false) := by
  have hscan : scan? Command.evalSpecs true (evalArgs formula given) =
      some ⟨given.map fun g => ("--set".toList, some (overrideItem g)), [formula]⟩ := by
    rw [evalArgs]
    cases hlooks : isOptionLike formula with
    | true =>
      have hwords : scan? Command.evalSpecs true [['-', '-'], formula] = some ⟨[], [formula]⟩ := rfl
      rw [if_pos rfl, scan?_setArgs, hwords, Option.map_some, List.append_nil]
    | false =>
      have hword : formula ≠ ['-', '-'] := by
        rintro rfl
        cases hlooks
      have hoptions := scan?_setArgs given []
      have hnone : scan? Command.evalSpecs true [] = some ⟨[], []⟩ := rfl
      rw [hnone, Option.map_some, List.append_nil, List.append_nil] at hoptions
      rw [if_neg Bool.false_ne_true, scan?, if_neg hword, hlooks, if_neg Bool.false_ne_true, if_pos rfl, hoptions]
      rfl
  rw [Command.readEval?, hscan]
  dsimp only
  rw [values_setArgs, has_setArgs]

/-! ## Projects -/

def projectArgs : Option (List Char) → List (List Char)
  | none     => []
  | some dir => ["--project".toList, dir]

def readProject (fs : Files) : Option (List Char) → Except ArgumentError (Option (List Char))
  | none     => .ok none
  | some dir => (readDirectory fs dir).map some

theorem read_projectArgs {name : List Char} (hname : Request.commandNames.contains name = true) (fs : Files)
    (project : Option (List Char)) (rest : List (List Char)) :
    Request.read fs (projectArgs project ++ name :: rest) =
      (readProject fs project).map fun project => .command project name rest := by
  have hall : ∀ n ∈ Request.commandNames, isOptionLike n = false := by decide
  have hplain := hall name (List.contains_iff_mem.1 hname)
  have hword : name ≠ ['-', '-'] := by
    rintro rfl
    cases hplain
  have hwords : scan? Request.specs false (name :: rest) = some ⟨[], name :: rest⟩ := by
    rw [scan?, if_neg hword, hplain]
    rfl
  have hfront : Request.front fs (projectArgs project ++ name :: rest) =
      (readProject fs project).map fun project => some (project, name :: rest) := by
    cases project with
    | none =>
      rw [projectArgs, List.nil_append, Request.front, hwords]
      rfl
    | some dir =>
      have hscan : scan? Request.specs false (projectArgs (some dir) ++ name :: rest) =
          (scan? Request.specs false (name :: rest)).map (addOption "--project".toList (some dir)) := rfl
      have hdir : (addOption "--project".toList (some dir) ⟨[], name :: rest⟩).value? "--project".toList = some dir :=
        rfl
      have hversion : (addOption "--project".toList (some dir) ⟨[], name :: rest⟩).has "--version".toList = false := rfl
      rw [Request.front, hscan, hwords, Option.map_some]
      dsimp only
      rw [hversion, if_neg Bool.false_ne_true, hdir, readProject]
      dsimp only
      cases readDirectory fs dir <;> rfl
  rw [Request.read, hfront]
  cases readProject fs project with
  | error e => rfl
  | ok project =>
    dsimp only [Except.map]
    rw [if_pos hname]

variable {τ : Type} [Instant τ] {d entered : Desk τ} {s : Settings} {project : Option (List Char)} {path : Option Path}

/-- **Where the prompt can be opened, a formula can be evaluated** at the same desk under the same settings. -/
theorem prepare_eval {rest : List (List Char)} {command : Command}
    (hprepare : prepare d (projectArgs project ++ ["repl".toList]) = (entered, .ok (some (s, path, .prompt))))
    (hread : Command.readEval? rest = some command) :
    prepare d (projectArgs project ++ "eval".toList :: rest) = (entered, .ok (some (s, path, command))) := by
  rw [prepare, read_projectArgs rfl] at hprepare ⊢
  cases hproject : readProject d.files project with
  | error e =>
    rw [hproject] at hprepare
    cases hprepare
  | ok project =>
    rw [hproject] at hprepare
    dsimp only [Except.map] at hprepare ⊢
    cases henter : enter d (project.map Path.ofText) with
    | mk d' outcome =>
      rw [henter] at hprepare
      cases outcome with
      | error stop => cases hprepare
      | ok s' =>
        have hprompt : Command.read d'.files "repl".toList [] = .ok .prompt := rfl
        have heval : Command.read d'.files "eval".toList rest = .ok command := by
          rw [Command.read, if_pos rfl, hread, wellFormed]
        dsimp only at hprepare ⊢
        rw [hprompt] at hprepare
        rw [heval]
        cases hprepare
        rfl

end Console
end Abacus
