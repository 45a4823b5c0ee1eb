import Abacus.Proofs.Files.Made
import Abacus.Proofs.Journal.Kept
import Abacus.Proofs.Journal.Run
/-!
# How far a write reaches

Whatever a store holds and wherever a write stops, it adds the line of its event to none of the logs, to the log of
all events, or to that and the log of the session (`Logged`), and touches no other file (`write_extends`).  The line
keeps all of the event but for what is cut and what names missing keys (`Event.isKeptAs_kept`).
-/
namespace Abacus.Journal

open Files

variable {fs fs' : Files} {log : Path} {line : List Char} {j : Journal} {e : Event} {session : Option (List Char)}

theorem makesDirs_start (fs : Files) (project : Path) (syncs : Bool) (tailBytes : Option Int) :
    MakesDirs fs (start fs project syncs tailBytes).1 := by
  have hmade := makesDirs_makeDirs fs (logsDir project)
  rw [start]
  generalize fs.makeDirs (logsDir project) = made at hmade ⊢
  obtain ⟨fs₁, _ | e⟩ := made
  · dsimp only
    cases hsessions : fs₁.makeDir (sessionsDir project) with
    | error e => exact hmade
    | ok fs₂ => exact hmade.trans (makesDirs_makeDir hsessions)
  · exact hmade

theorem append_cases {failure : Option FileError} (h : append fs log line = (fs', failure)) :
    (∃ e, failure = some e) ∧ MakesDirs fs fs' ∨
      failure = none ∧ ∃ made dir place, MakesDirs fs made ∧ made.IsDir log.parent dir ∧ made.locate log = .ok place ∧
        Adds [place] (Utf8.encode line) made fs' := by
  have hmakes := makesDirs_makeDirs fs log.parent
  rw [append] at h
  cases hmade : fs.makeDirs log.parent with
  | mk made stopped =>
    rw [hmade] at h hmakes
    cases stopped with
    | some e =>
      cases h
      exact .inl ⟨⟨e, rfl⟩, hmakes⟩
    | none =>
      dsimp only at h
      cases happend : made.append log (Utf8.encode line) with
      | error e =>
        rw [happend] at h
        cases h
        exact .inl ⟨⟨e, rfl⟩, hmakes⟩
      | ok added =>
        rw [happend] at h
        cases h
        obtain ⟨dir, hdir⟩ := isDir_of_makeDirs hmade
        obtain ⟨place, hlocate, -, -⟩ := append_eq_ok_iff.1 happend
        exact .inr ⟨rfl, made, dir, place, hmakes, hdir, hlocate, Files.adds_of_append happend hlocate⟩

/-- The places of the logs that a write may add its line to, in the store that it leaves. -/
inductive Logged (project : Path) (session : Option (List Char)) (fs : Files) : List Place → Prop
  | nowhere : Logged project session fs []
  | globally {place : Place} (hglobal : fs.locate (globalLog project) = .ok place) : Logged project session fs [place]
  | fully {place place' : Place} {name : List Char} (hglobal : fs.locate (globalLog project) = .ok place)
      (hsession : session = some name) (haccepts : accepts name = true)
      (hlocate : fs.locate (sessionLog project name) = .ok place') (hne : place ≠ place') :
      Logged project session fs [place, place']

theorem place_ne_of_isDir {project : Path} {name : List Char} {logs sessions place place' : Place}
    (hlogs : fs.IsDir (logsDir project) logs) (hsessions : fs.IsDir (sessionsDir project) sessions)
    (hglobal : fs.locate (globalLog project) = .ok place) (hlocate : fs.locate (sessionLog project name) = .ok place') :
    place ≠ place' := by
  obtain ⟨above, habove, rfl⟩ := hsessions.parent (by decide) (by decide)
  obtain rfl : above = logs := Except.ok.inj (habove.locate.symm.trans hlogs.locate)
  have hdirs : HasDirs fs project above := ⟨hlogs, hsessions⟩
  rw [hdirs.locate_globalLog hglobal, hdirs.locate_sessionLog hlocate]
  exact globalPlace_ne_sessionPlace above name

/-- **A write touches nothing but its logs**, in any store and wherever it stops. -/
theorem write_extends (j : Journal) (fs : Files) (e : Event) (session : Option (List Char)) :
    ∃ places, Logged j.project session (j.write fs e session).1 places ∧
      Extends places e.bytes fs (j.write fs e session).1 ∧ (places ≠ [] → e.isRecordable = true) ∧
      (e.isRecordable = true → (append fs (globalLog j.project) e.line).2 = none → places ≠ []) := by
  rw [write]
  cases hrecordable : e.isRecordable with
  | false => exact ⟨[], .nowhere, (MakesDirs.refl fs).extends _, fun hne => absurd rfl hne, fun h => by cases h⟩
  | true =>
    rw [Bool.not_true, if_neg Bool.false_ne_true]
    cases hglobal : append fs (globalLog j.project) e.line with
    | mk first failure =>
      obtain ⟨⟨why, rfl⟩, hmakes⟩ | ⟨rfl, made, logs, place, hmakes, hlogs, hplace, hadds⟩ := append_cases hglobal
      · exact ⟨[], .nowhere, hmakes.extends _, fun _ => rfl, fun _ h => by cases h⟩
      rw [globalLog, Path.parent_child] at hlogs
      have hextends : Extends [place] e.bytes fs first := (hmakes.extends e.bytes).concat hadds List.not_mem_nil
      have hfirst : first.locate (globalLog j.project) = .ok place := locate_of_keeps hadds.keepsDirs hplace
      have honly : ∃ places, Logged j.project session first places ∧ Extends places e.bytes fs first ∧
          (places ≠ [] → true = true) ∧ (true = true → (none : Option FileError) = none → places ≠ []) :=
        ⟨_, .globally hfirst, hextends, fun _ => rfl, fun _ _ => List.cons_ne_nil _ _⟩
      dsimp only
      split
      · exact honly
      · rename_i name
        split
        · rename_i haccepts
          cases hsession : append first (sessionLog j.project name) e.line with
          | mk last failure =>
            obtain ⟨-, hmakes'⟩ | ⟨-, made', sessions, place', hmakes', hsessions, hplace', hadds'⟩ :=
              append_cases hsession
            · exact ⟨_, .globally (locate_of_keeps hmakes'.keepsDirs hfirst), hextends.makesDirs hmakes', fun _ => rfl,
                fun _ _ => List.cons_ne_nil _ _⟩
            · rw [sessionLog, Path.parent_child] at hsessions
              have hlogs' := (hlogs.of_keeps hadds.keepsDirs).of_keeps hmakes'.keepsDirs
              have hfirst' := locate_of_keeps hmakes'.keepsDirs hfirst
              have hne := place_ne_of_isDir hlogs' hsessions hfirst' hplace'
              refine ⟨_, .fully (locate_of_keeps hadds'.keepsDirs hfirst') rfl haccepts
                (locate_of_keeps hadds'.keepsDirs hplace') hne, ?_, fun _ => rfl, fun _ _ => List.cons_ne_nil _ _⟩
              exact (hextends.makesDirs hmakes').concat hadds' (by simpa using hne.symm)
        · exact honly

theorem writable_write {logs place : Place} {old : List UInt8} (hdirs : HasDirs fs j.project logs)
    (hglobal : fs.writable (globalLog j.project) = .ok (place, old)) (e : Event) (session : Option (List Char)) :
    (j.write fs e session).1.writable (globalLog j.project) =
      .ok (place, old ++ if e.isRecordable then e.bytes else []) := by
  cases hrecordable : e.isRecordable with
  | false =>
    have hwrite : j.write fs e session = (fs, some .unrecordable) := by
      rw [write, hrecordable]
      rfl
    rw [hwrite, if_neg Bool.false_ne_true, List.append_nil, hglobal]
  | true =>
    obtain ⟨fs₁, happend⟩ := append_of_writable hdirs.main hglobal e.line
    obtain ⟨places, hlogged, hextends, -, hreaches⟩ := write_extends j fs e session
    obtain ⟨hlocate, -, rfl⟩ := writable_eq_ok_iff.1 hglobal
    have hlocate' := locate_of_keeps hextends.keepsDirs hlocate
    have hmem : place ∈ places := by
      cases hlogged with
      | nowhere => exact absurd rfl (hreaches hrecordable (congrArg Prod.snd happend))
      | globally hplace => exact List.mem_singleton.2 (Except.ok.inj (hlocate'.symm.trans hplace))
      | fully hplace => exact List.mem_cons.2 (.inl (Except.ok.inj (hlocate'.symm.trans hplace)))
    have hnode := hextends.grown place hmem
    refine writable_eq_ok_iff.2 ⟨hlocate', fun hdir => ?_, ?_⟩
    · rw [hnode] at hdir
      cases hdir
    · rw [Files.contents, hnode, if_pos rfl]

end Abacus.Journal

namespace Abacus

/-! ## The event of a line -/

namespace Assoc

theorem keys_set (key : List Char) (value : Json) (fs : Fields) :
    Fields.keys (set key value fs) = if key ∈ Fields.keys fs then Fields.keys fs else Fields.keys fs ++ [key] := by
  induction fs with
  | nil => simp [set, Fields.keys]
  | cons f fs ih =>
    obtain ⟨k, v⟩ := f
    have hkeys : Fields.keys ((k, v) :: fs) = k :: Fields.keys fs := rfl
    rw [set, hkeys]
    by_cases hk : k = key
    · subst hk
      simp [Fields.keys]
    · have hstep : Fields.keys ((k, v) :: set key value fs) = k :: Fields.keys (set key value fs) := rfl
      rw [if_neg (by simpa using hk), hstep, ih]
      by_cases hmem : key ∈ Fields.keys fs <;> simp [hmem, Ne.symm hk]

theorem nodup_keys_set {key : List Char} {value : Json} {fs : Fields} (h : (Fields.keys fs).Nodup) :
    (Fields.keys (set key value fs)).Nodup := by
  rw [keys_set]
  split
  · exact h
  · rename_i hmem
    exact List.nodup_append.2 ⟨h, by simp, fun k hk l hl heq => hmem (List.mem_singleton.1 hl ▸ heq ▸ hk)⟩

end Assoc

namespace Event

variable {e : Event}

theorem hasUniqueKeys_truncatedValue {v : Json} (h : v.hasUniqueKeys = true) :
    (truncatedValue v).hasUniqueKeys = true := by
  induction v using Json.inductionOn with
  | obj fields ih =>
    rw [Json.hasUniqueKeys, Bool.and_eq_true, decide_eq_true_eq, Json.fieldsHaveUniqueKeys_iff] at h
    rw [truncatedValue, Json.hasUniqueKeys, Bool.and_eq_true, decide_eq_true_eq, Json.fieldsHaveUniqueKeys_iff,
      keys_truncatedFields, truncatedFields_eq_map, List.forall_mem_map]
    exact ⟨h.1, fun f hf => ih f hf (h.2 f hf)⟩
  | str text => rfl
  | _ => exact h

theorem hasUniqueKeys_texts (texts : List (List Char)) : (Json.arr (texts.map .str)).hasUniqueKeys = true := by
  rw [Json.hasUniqueKeys, Json.haveUniqueKeys_iff, List.forall_mem_map]
  exact fun text _ => rfl

theorem hasUniqueKeys_kept (h : e.hasUniqueKeys = true) : e.kept.hasUniqueKeys = true := by
  have hcut : (Json.obj e.truncated.context).hasUniqueKeys = true :=
    hasUniqueKeys_truncatedValue (v := .obj e.context) h
  rw [kept, attributed]
  split
  · exact hcut
  · rw [Json.hasUniqueKeys, Bool.and_eq_true, decide_eq_true_eq, Json.fieldsHaveUniqueKeys_iff] at hcut
    rw [hasUniqueKeys, Json.hasUniqueKeys, Bool.and_eq_true, decide_eq_true_eq, Json.fieldsHaveUniqueKeys_iff]
    exact ⟨Assoc.nodup_keys_set hcut.1,
      Assoc.forall_set (P := fun v : Json => v.hasUniqueKeys = true) (hasUniqueKeys_texts _) hcut.2⟩

/-- The second event is the first as it is recorded: only the context is cut, and if it lacks keys that the kind
requires, the event is a warning that names them in order. -/
structure IsKeptAs (e k : Event) : Prop where
  version : k.version = e.version
  stamp : k.stamp = e.stamp
  kind : k.kind = e.kind
  message : k.message = e.message
  code : k.code = e.code
  attributed :
    (∀ key ∈ e.kind.required, key ∈ Fields.keys e.context) ∧ k.level = e.level ∧ k.context = truncatedFields e.context ∨
      ∃ absent, absent ≠ [] ∧ absent.Pairwise (fun s t => textLe s t = true ∧ s ≠ t) ∧
        (∀ key, key ∈ absent ↔ key ∈ e.kind.required ∧ key ∉ Fields.keys e.context) ∧ k.level = .warning ∧
        k.context = Assoc.set missingKey (.arr (absent.map .str)) (truncatedFields e.context)

theorem mem_missing {kind : EventKind} {context : Fields} {key : List Char} :
    key ∈ missing kind context ↔ key ∈ kind.required ∧ key ∉ Fields.keys context := by
  simp [missing]

theorem pairwise_required (kind : EventKind) : kind.required.Pairwise fun s t => textLe s t = true ∧ s ≠ t := by
  cases kind <;> simp [EventKind.required]

theorem isKeptAs_kept (e : Event) : e.IsKeptAs e.kept := by
  have hmissing : missing e.truncated.kind e.truncated.context = missing e.kind e.context :=
    missing_truncatedFields _ _
  rw [kept, attributed, hmissing]
  split
  · rename_i hnone
    refine ⟨rfl, rfl, rfl, rfl, rfl, .inl ⟨fun key hkey => ?_, rfl, rfl⟩⟩
    by_contra hnot
    have hmem := mem_missing.2 ⟨hkey, hnot⟩
    rw [hnone] at hmem
    cases hmem
  · rename_i hsome
    exact ⟨rfl, rfl, rfl, rfl, rfl,
      .inr ⟨_, hsome, (pairwise_required e.kind).filter _, fun _ => mem_missing, rfl, rfl⟩⟩

end Event

end Abacus
