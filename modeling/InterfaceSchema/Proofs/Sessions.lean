import InterfaceSchema.Proofs.Nearest

/-!
# Sessions

Conversions one after the other, in any order and over any types, those of the registry or not.
Nothing passes from one call to the next but the diagnostics, and no conversion reads them, so each
call comes to what it would come to alone, whatever went wrong before it.

* `convert_of_isUnion`, `convert_of_not_isUnion`: what one call does to a session.
* `Reported`: what has to be said of a list of calls.
* `run_eq`: a run from any session.
* `run_start`: a run from a session without diagnostics.
-/

namespace InterfaceSchema

open Draft (Definition)

/-- What is converted is a union. -/
def Referent.IsUnion (r : Referent) : Prop := ∃ t, r = .declared t ∧ t.IsUnion

/-- One union diagnostic for each call of a union, in order, and nothing for other calls. -/
inductive Reported : List Referent → List Diagnostic → Prop where
  | nil : Reported [] []
  | union {t : TypeDef} {calls : List Referent} {ds : List Diagnostic} (h : t.IsUnion)
      (rest : Reported calls ds) :
      Reported (.declared t :: calls) (.unionNotSupported t.name :: ds)
  | other {r : Referent} {calls : List Referent} {ds : List Diagnostic} (h : ¬ r.IsUnion)
      (rest : Reported calls ds) : Reported (r :: calls) ds

/-- There is one way to report on a list of calls. -/
theorem Reported.unique {calls : List Referent} {ds es : List Diagnostic}
    (hd : Reported calls ds) (he : Reported calls es) : ds = es := by
  induction hd generalizing es with
  | nil => cases he; rfl
  | union hunion _ ih =>
      cases he with
      | union _ rest => rw [ih rest]
      | other hno => exact absurd ⟨_, rfl, hunion⟩ hno
  | other hno _ ih =>
      cases he with
      | union hunion => exact absurd ⟨_, rfl, hunion⟩ hno
      | other _ rest => exact ih rest

namespace Session

/-- The session before the first conversion. -/
def start (reg : Registry) : Session := ⟨reg, []⟩

/-- Converts one type after the other and keeps what each came to; a type without a conversion
does not end the run. -/
def run (s : Session) : List Referent → List (Except ConversionError (Option Definition)) × Session
  | [] => ([], s)
  | r :: calls =>
    let rest := (s.convert r).2.run calls
    ((s.convert r).1 :: rest.1, rest.2)

variable {s : Session}

/-! ### One call -/

/-- A call comes to what it comes to in a session of its own. -/
theorem convert_fst (s : Session) (r : Referent) :
    (s.convert r).1 = ((start s.registry).convert r).1 := rfl

/-- A union has no definition and is reported. -/
theorem convert_of_isUnion {t : TypeDef} (h : t.IsUnion) :
    s.convert (.declared t) =
      (.ok none, { s with diagnostics := s.diagnostics ++ [.unionNotSupported t.name] }) := by
  obtain ⟨variants, hform⟩ := h
  obtain ⟨name, supertype, comment, form⟩ := t
  subst hform
  rfl

/-- Any other call leaves the session as it is, also when it fails. -/
theorem convert_of_not_isUnion {r : Referent} (h : ¬ r.IsUnion) : (s.convert r).2 = s := by
  have hnone : r.diagnostic? = none := by
    unfold Referent.diagnostic?
    split
    · exact absurd ⟨_, rfl, _, rfl⟩ h
    · rfl
  rw [convert, hnone, Option.toList_none, List.append_nil]

/-! ### Runs -/

/-- **From any session, calls come to what they come to alone**, and what they have to be said
about comes after what was there before. -/
theorem run_eq (s : Session) (calls : List Referent) :
    (s.run calls).1 = calls.map (fun r => ((start s.registry).convert r).1) ∧
      ∃ ds, Reported calls ds ∧
        (s.run calls).2 = { s with diagnostics := s.diagnostics ++ ds } := by
  induction calls generalizing s with
  | nil => exact ⟨rfl, [], .nil, by rw [List.append_nil]; rfl⟩
  | cons r calls ih =>
      by_cases hunion : r.IsUnion
      · obtain ⟨t, rfl, ht⟩ := hunion
        obtain ⟨hresults, ds, hds, hlast⟩ :=
          ih { s with diagnostics := s.diagnostics ++ [.unionNotSupported t.name] }
        have hnext := congrArg Prod.snd (convert_of_isUnion (s := s) ht)
        refine ⟨?_, _, .union ht hds, ?_⟩
        · rw [run, hnext, hresults, List.map_cons, convert_fst]
        · rw [run, hnext, hlast, List.append_assoc, List.singleton_append]
      · obtain ⟨hresults, ds, hds, hlast⟩ := ih s
        have hnext : (s.convert r).2 = s := convert_of_not_isUnion hunion
        refine ⟨?_, ds, .other hunion hds, ?_⟩
        · rw [run, hnext, hresults, List.map_cons, convert_fst]
        · rw [run, hnext, hlast]

/-- **A run over a registry.**  Each call comes to what it comes to in a session of its own.  At
the end there is one diagnostic for each call of a union, in the order of the calls, and no
other. -/
theorem run_start (reg : Registry) (calls : List Referent) :
    ((start reg).run calls).1 = calls.map (fun r => ((start reg).convert r).1) ∧
      ((start reg).run calls).2.registry = reg ∧
      ∀ ds, ((start reg).run calls).2.diagnostics = ds ↔ Reported calls ds := by
  obtain ⟨hresults, ds, hds, hlast⟩ := run_eq (start reg) calls
  rw [hlast]
  exact ⟨hresults, rfl, fun es => ⟨fun h => h ▸ hds, fun h => hds.unique h⟩⟩

/-- A union twice, with a shadowed type, a built-in type and a type from elsewhere in between, of
which two fail. -/
theorem run_start_unions :
    let shadowed : TypeDef := ⟨"Either", "Missing", none, .bare⟩
    let either : TypeDef := ⟨"Either", "", none, .union ["A", "B"]⟩
    let names : TypeDef := ⟨"Names", "Array", none, .array "String"⟩
    let reg : Registry := ⟨[shadowed, either]⟩
    let calls : List Referent :=
      [.declared either, .declared shadowed, .builtIn .int8, .declared names, .declared either]
    ((start reg).run calls).1 =
        [.ok none, .error (.lookup (.unknown "Missing")), .error (.unsupported "Int8" .int8),
          .ok (some ⟨none, .array "array" (some .string)⟩), .ok none] ∧
      Reported calls [.unionNotSupported "Either", .unionNotSupported "Either"] := by
  intro shadowed either names reg calls
  obtain ⟨hresults, -, hdiagnostics⟩ := run_start reg calls
  exact ⟨hresults.trans (by decide +kernel), (hdiagnostics _).1 rfl⟩

end Session
end InterfaceSchema
