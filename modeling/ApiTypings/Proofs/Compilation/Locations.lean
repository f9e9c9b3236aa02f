import ApiTypings.Proofs.CommandLine.Validity
import ApiTypings.Proofs.Emission.Located

/-!
# Locations

A session that makes declarations with the published rules enters and leaves what it declares, and
is then where it was. **`Session.grows_builtin`** — what is reported meanwhile comes behind the
earlier reports, each at the path of the part of the documentation that is made, or of one of its
members. So all locations in a compilation are those of a class or a namespace and of its members.
-/

namespace ApiTypings

open RuleTable

/-! ### Sessions -/

namespace Session

variable (s : Session)

theorem grows_method (m : MethodDoc) (owner : String) :
    s.Grows (m.emission builtin owner).emit {[m.name]} :=
  (m.made_emission owner every_proper_builtin).grows
    (m.reportsAt_emission owner every_local_builtin (Context.location_enter_mem_below rfl))

theorem grows_function (m : MethodDoc) (owner : String) :
    s.Grows (m.functionEmission builtin owner).emit {[m.name]} :=
  (m.made_functionEmission owner every_proper_builtin
    (everySignature_builtin proper_interpolation)).grows
    (m.reportsAt_functionEmission owner every_local_builtin
      (everySignature_builtin local_interpolation) (Context.location_enter_mem_below rfl))

theorem grows_field (f : FieldDoc) (owner : String) :
    s.Grows (f.emission builtin owner).emit {[f.name]} :=
  (f.made_emission owner every_proper_builtin).grows
    (f.reportsAt_emission owner every_local_builtin (Context.location_enter_mem_below rfl))

theorem grows_constant (f : FieldDoc) (owner : String) :
    s.Grows (f.constantEmission builtin owner).emit {[f.name]} :=
  (f.made_constantEmission owner every_proper_builtin).grows
    (f.reportsAt_constantEmission owner every_local_builtin (Context.location_enter_mem_below rfl))

theorem grows_class (c : ClassDoc) (parent? : Option String) :
    s.Grows (c.emission builtin parent?).emit (c.paths c.name) :=
  (c.made_emission parent? every_proper_builtin).grows
    (c.reportsAt_emission every_local_builtin parent?)

theorem grows_block (c : ClassDoc) :
    s.Grows (c.blockEmission builtin).emit (c.paths c.blockName) :=
  (c.made_blockEmission every_proper_builtin (everySignature_builtin proper_interpolation)).grows
    (c.reportsAt_blockEmission every_local_builtin (everySignature_builtin local_interpolation))

theorem grows_hierarchy (h : Hierarchy) :
    s.Grows (h.emit builtin) {path | ∃ c ∈ h.classes, path ∈ c.paths c.name} :=
  (h.made_emit every_proper_builtin).grows (h.reportsAt_emit every_local_builtin)

end Session

/-! ### Compilations -/

/-- Below nothing, the places of a class or a namespace are its name, and dotted paths of the name
and one of its members. -/
theorem ClassDoc.mem_below_paths {c : ClassDoc} {k : Context} (hs : k.scope = [])
    {name location : String} (h : location ∈ k.below (c.paths name)) :
    location = name ∨ ∃ member ∈ c.memberNames, location = name ++ "." ++ member := by
  obtain ⟨path, hp, rfl⟩ := h
  rw [hs, List.nil_append]
  obtain rfl | ⟨member, hm, rfl⟩ := hp
  · exact .inl rfl
  · exact .inr ⟨member, hm, rfl⟩

/-- In a compilation everything is reported at a class or at a namespace, or at one of the members
of these. -/
theorem Docs.location_of_mem_compile (d : Docs) (known : List String) (style : Layout.Style)
    {r : Diagnostic} (hr : r ∈ (d.compile { known, rules := builtin, style }).diagnostics) :
    (∃ c ∈ d.classes, r.location = c.name ∨
      ∃ member ∈ c.memberNames, r.location = c.name ++ "." ++ member) ∨
    ∃ c ∈ d.namespaces,
      let name := if c.name = "globals" then "global" else c.name
      r.location = name ∨ ∃ member ∈ c.memberNames, r.location = name ++ "." ++ member := by
  let k := d.context { known, rules := builtin, style }
  have hs : k.scope = [] := rfl
  replace hr : r ∈ (d.emit builtin).diagnostics k := hr
  rw [Docs.emit, Checked.diagnostics_bind, Checked.diagnostics_bind, Checked.diagnostics_pure,
    List.append_nil, List.mem_append, Checked.diagnostics_gather, List.mem_flatMap] at hr
  obtain hclass | ⟨c, hc, hblock⟩ := hr
  · obtain ⟨path, ⟨c, hc, hp⟩, heq⟩ :=
      Hierarchy.reportsAt_emit ⟨d.classes⟩ every_local_builtin r hclass
    exact .inl ⟨c, hc, ClassDoc.mem_below_paths hs ⟨path, hp, heq⟩⟩
  · have hplace := c.reportsAt_blockEmission every_local_builtin
      (everySignature_builtin local_interpolation) r hblock
    rw [c.blockName_eq] at hplace
    exact .inr ⟨c, hc, ClassDoc.mem_below_paths hs hplace⟩

/-- **Making declarations leaves a session where it was.** Take any session, wherever it is and
whatever it knows and has reported, and the published rules. For any method, function, field,
constant, class, namespace or hierarchy, it goes through what is made of it and is then where it was
and knows what it knew. All that is reported comes behind the earlier reports, at the path of the
part that is made, below that of the session, or at the path of one of its own members. So in a
compilation everything is reported at a documented class or one of the two namespaces, the global
one under its name in the declarations, or at one of its members. -/
theorem Session.grows_builtin (s : Session) :
    (∀ (m : MethodDoc) (owner : String),
      s.Grows (m.emission builtin owner).emit {[m.name]} ∧
        s.Grows (m.functionEmission builtin owner).emit {[m.name]}) ∧
    (∀ (f : FieldDoc) (owner : String),
      s.Grows (f.emission builtin owner).emit {[f.name]} ∧
        s.Grows (f.constantEmission builtin owner).emit {[f.name]}) ∧
    (∀ c : ClassDoc,
      (∀ parent?, s.Grows (c.emission builtin parent?).emit (c.paths c.name)) ∧
        s.Grows (c.blockEmission builtin).emit
          (c.paths (if c.name = "globals" then "global" else c.name))) ∧
    (∀ h : Hierarchy,
      s.Grows (h.emit builtin) {path | ∃ c ∈ h.classes, path ∈ c.paths c.name}) ∧
    ∀ (d : Docs) (known : List String) (style : Layout.Style),
      ∀ r ∈ (d.compile { known, rules := builtin, style }).diagnostics,
        (∃ c ∈ d.classes, r.location = c.name ∨
          ∃ member ∈ c.memberNames, r.location = c.name ++ "." ++ member) ∨
        ∃ c ∈ d.namespaces,
          let name := if c.name = "globals" then "global" else c.name
          r.location = name ∨ ∃ member ∈ c.memberNames, r.location = name ++ "." ++ member := by
  refine ⟨?methods, ?fields, ?classes, s.grows_hierarchy, ?compilations⟩
  case methods =>
    intro m owner
    exact ⟨s.grows_method m owner, s.grows_function m owner⟩
  case fields =>
    intro f owner
    exact ⟨s.grows_field f owner, s.grows_constant f owner⟩
  case classes =>
    intro c
    rw [← c.blockName_eq]
    exact ⟨s.grows_class c, s.grows_block c⟩
  case compilations =>
    intro d known style r hr
    exact d.location_of_mem_compile known style hr

/-- Documentation of a class with a method whose parameter has a type that nobody documents. -/
def listeningLamp : Docs where
  globals :=
    { name := "globals"
      fields := [{
        name := "blocks"
        children := [{
          name := "Lamp"
          methods := [{
            name := "listen"
            parameters := [[⟨"listener", "Listener"⟩]]
            returns := ["nil"] }] }] }] }
  math := { name := "math" }

theorem Session.grows_builtin_listeningLamp :
    let report := (Diagnostic.plain .unknownType "Lamp.listen").withDetail "Listener"
    report ∈ (listeningLamp.compile { known := [], rules := builtin, style := {} }).diagnostics ∧
      ((∃ c ∈ listeningLamp.classes, report.location = c.name ∨
          ∃ member ∈ c.memberNames, report.location = c.name ++ "." ++ member) ∨
        ∃ c ∈ listeningLamp.namespaces,
          let name := if c.name = "globals" then "global" else c.name
          report.location = name ∨
            ∃ member ∈ c.memberNames, report.location = name ++ "." ++ member) := by
  intro report
  have hreport : report ∈
      (listeningLamp.compile { known := [], rules := builtin, style := {} }).diagnostics := by
    decide +kernel
  exact ⟨hreport, (Session.new []).grows_builtin.2.2.2.2 listeningLamp [] {} report hreport⟩

end ApiTypings
