import ApiTypings.Rules.Basic

/-!
# A table of rules as a log

A table of rules is filled by registrations, one after another (`RuleTable.ofRegistrations`), and
keeps what is registered under owners and members. The log of the registrations has no such order
in it: it is the list of the rules with what each is for (`Registration.entries`), in the order in
which they came, as often as they came.

* `rulesFor_register`, `signature?_register`, `isEmpty_register` — what one registration does to
  a table, whatever is in it. From each follows what all of them do, by induction on them.
* `value_firstAnswer`, `diagnostics_firstAnswer` — which rules are asked, and what comes of it.
* **`lookup_ofRegistrations`** — at a site the table asks just the rules of the log that are for
  it, in the order of the log and up to the first that has an answer.
-/

namespace ApiTypings

/-- A rule with what it is for. -/
structure RuleEntry where
  owner : String
  member : String
  target : Target
  rule : Rule

/-- The ways to register rules in a table. -/
inductive Registration
  | rule (owner member : String) (target : Target) (rule : Rule)
  /-- One rule for every member of every owner. -/
  | rules (owners members : List String) (target : Target) (rule : Rule)
  /-- A rule for the functions of a name. -/
  | signature (member : String) (rule : SignatureRule)

namespace Registration

/-- The table with what is registered. -/
def register (t : RuleTable) : Registration → RuleTable
  | rule owner member target r => t.add owner member target r
  | rules owners members target r => t.addAll owners members target r
  | signature member r => t.addSignature member r

/-- The rules that are registered with what they are for: owner by owner, and for each of them
member by member. -/
def entries : Registration → List RuleEntry
  | rule owner member target r => [⟨owner, member, target, r⟩]
  | rules owners members target r =>
    owners.flatMap fun owner => members.map fun member => ⟨owner, member, target, r⟩
  | signature _ _ => []

/-- The rule for whole functions that is registered, with their name. -/
def signature? : Registration → Option (String × SignatureRule)
  | signature member r => some (member, r)
  | _ => none

end Registration

namespace RuleTable

/-- The table that registrations make, one after another. -/
def ofRegistrations (rs : List Registration) : RuleTable := rs.foldl Registration.register empty

/-- What is registered under an owner and a member, in the order of a log. -/
def logged (log : List RuleEntry) (owner member : String) : List (Target × Rule) :=
  (log.filter fun e => e.owner == owner && e.member == member).map fun e => (e.target, e.rule)

theorem logged_cons (e : RuleEntry) (log : List RuleEntry) (owner member : String) :
    logged (e :: log) owner member =
      (if owner = e.owner ∧ member = e.member then [(e.target, e.rule)] else []) ++
        logged log owner member := by
  by_cases ho : owner = e.owner
  · by_cases hm : member = e.member
    · simp [logged, ho, hm]
    · simp [logged, ho, hm, Ne.symm hm]
  · simp [logged, ho, Ne.symm ho]

theorem logged_append (log more : List RuleEntry) (owner member : String) :
    logged (log ++ more) owner member = logged log owner member ++ logged more owner member := by
  simp [logged]

/-- The rule for the functions of a name that was registered last. -/
def signatureOf (log : List (String × SignatureRule)) (member : String) : Option SignatureRule :=
  ((log.filter (·.1 == member)).map (·.2)).getLast?

theorem signatureOf_append (log more : List (String × SignatureRule)) (member : String) :
    signatureOf (log ++ more) member = (signatureOf more member).or (signatureOf log member) := by
  simp [signatureOf, List.getLast?_append]

/-- The table with one more rule. -/
def addEntry (t : RuleTable) (e : RuleEntry) : RuleTable := t.add e.owner e.member e.target e.rule

theorem addAll_eq_foldl (t : RuleTable) (owners members : List String) (target : Target)
    (rule : Rule) :
    t.addAll owners members target rule =
      (Registration.rules owners members target rule).entries.foldl addEntry t := by
  simp [addAll, Registration.entries, addEntry, List.foldl_flatMap, List.foldl_map]

/-! ### One registration -/

variable (t : RuleTable) (r : Registration)

theorem rulesFor_foldl_addEntry (es : List RuleEntry) (owner member : String) :
    (es.foldl addEntry t).rulesFor owner member =
      t.rulesFor owner member ++ logged es owner member := by
  induction es generalizing t with
  | nil => simp [logged]
  | cons e es ih =>
    rw [List.foldl_cons, ih, addEntry, rulesFor_add, logged_cons, List.append_assoc]

/-- Rules come behind those that are there for the same owner and member. -/
theorem rulesFor_register (owner member : String) :
    (r.register t).rulesFor owner member =
      t.rulesFor owner member ++ logged r.entries owner member := by
  cases r with
  | rule o m target rule => exact rulesFor_foldl_addEntry t [⟨o, m, target, rule⟩] owner member
  | rules os ms target rule =>
    rw [Registration.register, addAll_eq_foldl, rulesFor_foldl_addEntry]
  | signature m rule => exact (List.append_nil _).symm

theorem signatures_foldl_addEntry (es : List RuleEntry) :
    (es.foldl addEntry t).signatures = t.signatures := by
  induction es generalizing t with
  | nil => rfl
  | cons e es ih => exact ih (t.addEntry e)

/-- A rule for whole functions takes the place of the one for the same name. -/
theorem signature?_register (member : String) :
    (r.register t).signature? member =
      (signatureOf r.signature?.toList member).or (t.signature? member) := by
  cases r with
  | rule o m target rule => rfl
  | rules os ms target rule =>
    rw [Registration.register, addAll_eq_foldl, signature?, signatures_foldl_addEntry]
    rfl
  | signature m rule =>
    rw [Registration.register, addSignature, signature?, Keyed.get?_insert]
    by_cases hm : member = m
    · simp [signatureOf, Registration.signature?, hm]
    · simp [signatureOf, Registration.signature?, hm, Ne.symm hm, signature?]

theorem rules_isEmpty_foldl_addEntry (es : List RuleEntry) :
    (es.foldl addEntry t).rules.isEmpty = (t.rules.isEmpty && es.isEmpty) := by
  induction es generalizing t with
  | nil => simp
  | cons e es ih => simp [ih, addEntry, add]

/-- A table stays empty as long as nothing is registered. -/
theorem isEmpty_register :
    (r.register t).isEmpty = true ↔
      t.isEmpty = true ∧ r.entries = [] ∧ r.signature? = none := by
  cases r with
  | rule o m target rule => simp [Registration.register, isEmpty, add, Registration.entries]
  | rules os ms target rule =>
    rw [Registration.register, addAll_eq_foldl, isEmpty, rules_isEmpty_foldl_addEntry,
      signatures_foldl_addEntry, isEmpty]
    simp [Registration.signature?, and_right_comm]
  | signature m rule => simp [Registration.register, isEmpty, addSignature, Registration.signature?]

/-! ### One registration after another -/

variable (rs : List Registration)

/-- The rules that are registered with what they are for. -/
def log : List RuleEntry := rs.flatMap Registration.entries

/-- The rules for whole functions that are registered with their names. -/
def signatureLog : List (String × SignatureRule) := rs.filterMap Registration.signature?

theorem log_cons : log (r :: rs) = r.entries ++ log rs := List.flatMap_cons

theorem signatureLog_cons : signatureLog (r :: rs) = r.signature?.toList ++ signatureLog rs := by
  cases h : r.signature? <;> simp [signatureLog, h]

theorem rulesFor_foldl_register (owner member : String) :
    (rs.foldl Registration.register t).rulesFor owner member =
      t.rulesFor owner member ++ logged (log rs) owner member := by
  induction rs generalizing t with
  | nil => simp [log, logged]
  | cons r rs ih =>
    rw [List.foldl_cons, ih, rulesFor_register, log_cons, logged_append, List.append_assoc]

theorem signature?_foldl_register (member : String) :
    (rs.foldl Registration.register t).signature? member =
      (signatureOf (signatureLog rs) member).or (t.signature? member) := by
  induction rs generalizing t with
  | nil => rfl
  | cons r rs ih =>
    rw [List.foldl_cons, ih, signature?_register, ← Option.or_assoc, ← signatureOf_append,
      ← signatureLog_cons]

theorem isEmpty_foldl_register :
    (rs.foldl Registration.register t).isEmpty = true ↔
      t.isEmpty = true ∧ log rs = [] ∧ signatureLog rs = [] := by
  induction rs generalizing t with
  | nil => simp [log, signatureLog]
  | cons r rs ih =>
    rw [List.foldl_cons, ih, isEmpty_register, signatureLog_cons, log_cons,
      List.append_eq_nil_iff, List.append_eq_nil_iff, Option.toList_eq_nil_iff]
    rw [and_assoc, and_and_and_comm]

/-! ### Which rules are asked -/

/-- The rules up to the first that has an answer in a context. -/
def untilAnswer (site : Site) (c : Context) (rules : List Rule) : List Rule :=
  rules.takeWhile (fun rule => ((rule site).value c).isNone) ++
    (rules.find? fun rule => ((rule site).value c).isSome).toList

theorem value_firstAnswer (site : Site) (c : Context) (rules : List Rule) :
    (firstAnswer site rules).value c = rules.findSome? fun rule => (rule site).value c := by
  induction rules with
  | nil => rfl
  | cons rule rules ih =>
    rw [firstAnswer, Checked.value_bind, List.findSome?_cons]
    cases (rule site).value c with
    | some type => rfl
    | none => exact ih

theorem diagnostics_firstAnswer (site : Site) (c : Context) (rules : List Rule) :
    (firstAnswer site rules).diagnostics c =
      (untilAnswer site c rules).flatMap fun rule => (rule site).diagnostics c := by
  induction rules with
  | nil => rfl
  | cons rule rules ih =>
    rw [firstAnswer, Checked.diagnostics_bind]
    cases h : (rule site).value c with
    | some type => simp [untilAnswer, h]
    | none => simp [untilAnswer, h, ih]

/-- The rules of a log that are for what stands at a site. -/
def rulesAt (log : List RuleEntry) (site : Site) : List Rule :=
  (log.filter fun e =>
    e.owner == site.owner && e.member == site.member && e.target == site.target).map (·.rule)

theorem lookup_eq (site : Site) :
    (ofRegistrations rs).lookup site = firstAnswer site (rulesAt (log rs) site) := by
  rw [lookup, ofRegistrations, rulesFor_foldl_register, rulesFor_empty, List.nil_append, logged,
    List.filter_map, List.filter_filter, List.map_map]
  congr 2
  refine List.filter_congr fun e _ => ?_
  rw [Function.comp_apply, Bool.and_comm]

/-- **A table of rules is its log.** At a site the rules of the log that are for it are asked in the
order of the log, up to the first that has an answer, and what they report is reported. That answer
is the type at the site; if there is none, it is the type that the documentation names. The rule for
the functions of a name is the last that was registered. The table is empty exactly if the log is
and no such rule was registered. -/
theorem lookup_ofRegistrations :
    (∀ (site : Site) (c : Context),
      let rules := rulesAt (log rs) site
      let answer := rules.findSome? fun rule => (rule site).value c
      let reports := (untilAnswer site c rules).flatMap fun rule => (rule site).diagnostics c
      let documented := Checked.documentedType site.documented
      (((ofRegistrations rs).lookup site).value c = answer ∧
        ((ofRegistrations rs).lookup site).diagnostics c = reports) ∧
      ((ofRegistrations rs).resolve site).value c = answer.getD (documented.value c) ∧
      ((ofRegistrations rs).resolve site).diagnostics c =
        reports ++ if answer.isSome then [] else documented.diagnostics c) ∧
    (∀ member, (ofRegistrations rs).signature? member = signatureOf (signatureLog rs) member) ∧
    ((ofRegistrations rs).isEmpty = true ↔ log rs = [] ∧ signatureLog rs = []) := by
  refine ⟨fun site c => ?_, fun member => ?_, ?_⟩
  · intro rules answer reports documented
    have hvalue : ((ofRegistrations rs).lookup site).value c = answer := by
      rw [lookup_eq, value_firstAnswer]
    have hreports : ((ofRegistrations rs).lookup site).diagnostics c = reports := by
      rw [lookup_eq, diagnostics_firstAnswer]
    refine ⟨⟨hvalue, hreports⟩, ?_, ?_⟩
    · rw [resolve, Checked.value_bind, hvalue]
      cases answer <;> rfl
    · rw [resolve, Checked.diagnostics_bind, hvalue, hreports]
      cases answer <;> rfl
  · rw [ofRegistrations, signature?_foldl_register]
    exact Option.or_none
  · rw [ofRegistrations, isEmpty_foldl_register]
    exact and_iff_right rfl

end RuleTable

end ApiTypings
