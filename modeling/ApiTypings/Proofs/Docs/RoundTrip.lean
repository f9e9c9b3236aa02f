import ApiTypings.Docs.Read
import ApiTypings.Docs.Write
import ApiTypings.Proofs.Json.Records

/-!
# Reading documentation that was written

Documentation that is written as a JSON text and read again is the same (**`Docs.ofText_text`**).
The reader allows only so many open brackets, and the values that methods carry along must be such
that their texts tell them (`Json.Legible`): none is a double, and objects have their entries sorted
by their keys, which is how the reader keeps them (`Json.putEntry_sorted`).

Each part of the documentation is a record, whose fields are read into their slots
(`Json.reads_record`). Classes and the fields of namespaces hold each other, so their reading goes by
induction on classes (`ClassDoc.induction`).
-/

namespace ApiTypings

open Json

/-! ### Carried values -/

/-- The values that a method carries along, with all values in them. -/
def MethodDoc.carried (m : MethodDoc) : List Json := m.children.flatMap Json.parts

mutual

/-- The values that the methods of a class and of the classes below it carry along. -/
def ClassDoc.carried : ClassDoc → List Json
  | ⟨_, _, _, methods, fields⟩ => methods.flatMap MethodDoc.carried ++ FieldDoc.listCarried fields

/-- The values that are carried along below fields. -/
def FieldDoc.listCarried : List FieldDoc → List Json
  | [] => []
  | ⟨_, _, _, _, children⟩ :: fs => ClassDoc.listCarried children ++ FieldDoc.listCarried fs

/-- The values that classes carry along. -/
def ClassDoc.listCarried : List ClassDoc → List Json
  | [] => []
  | c :: cs => c.carried ++ ClassDoc.listCarried cs

end

/-- The values that documentation carries along. -/
def Docs.carried (d : Docs) : List Json := d.globals.carried ++ d.math.carried

theorem ClassDoc.mem_listCarried {cs : List ClassDoc} {v : Json} :
    v ∈ ClassDoc.listCarried cs ↔ ∃ c ∈ cs, v ∈ c.carried := by
  induction cs with
  | nil => simp [ClassDoc.listCarried]
  | cons c cs ih => simp [ClassDoc.listCarried, ih]

theorem FieldDoc.mem_listCarried {fs : List FieldDoc} {v : Json} :
    v ∈ FieldDoc.listCarried fs ↔ ∃ f ∈ fs, ∃ c ∈ f.children, v ∈ c.carried := by
  induction fs with
  | nil => simp [FieldDoc.listCarried]
  | cons f fs ih =>
    cases f
    simp [FieldDoc.listCarried, ih, ClassDoc.mem_listCarried]

theorem ClassDoc.mem_carried {c : ClassDoc} {v : Json} :
    v ∈ c.carried ↔ (∃ m ∈ c.methods, v ∈ m.carried) ∨
      ∃ f ∈ c.fields, ∃ child ∈ f.children, v ∈ child.carried := by
  cases c
  simp [ClassDoc.carried, FieldDoc.mem_listCarried]

/-- **Induction on classes**: a class is made of methods and of fields with classes below them. -/
theorem ClassDoc.induction {motive : ClassDoc → Prop}
    (mk : ∀ c : ClassDoc, (∀ f ∈ c.fields, ∀ child ∈ f.children, motive child) → motive c)
    (c : ClassDoc) : motive c :=
  mk c fun f _ child _ => ClassDoc.induction mk child
termination_by c
decreasing_by
  next hf hchild =>
  have hlt := List.sizeOf_lt_of_mem hf
  have hlt' := List.sizeOf_lt_of_mem hchild
  cases c
  cases f
  simp only [ClassDoc.mk.sizeOf_spec, FieldDoc.mk.sizeOf_spec] at *
  omega

/-! ### Parameters and methods -/

theorem reads_strings {texts : List String} {depth : Nat}
    (hd : (Json.ofStrings texts).depth ≤ depth) :
    Reads (readStrings depth) (Json.ofStrings texts).chars texts :=
  reads_list hd (fun s _ => begins_quoted s) fun s _ _ _ => reads_string s

theorem ParameterDoc.reads (p : ParameterDoc) {depth : Nat} (hd : p.toJson.depth ≤ depth) :
    Reads (ParameterDoc.read depth) p.toJson.chars p := by
  obtain ⟨n, rfl, -⟩ := depth_obj_le_iff.1 hd
  exact reads_record (.field rfl rfl ((reads_string p.name).map _)
    (.field rfl rfl ((reads_string p.type).map _) (.done rfl)))

/-- The parameters of an overload are read as they are written. -/
theorem ParameterDoc.reads_all {ps : List ParameterDoc} {depth : Nat}
    (hd : (Json.arr (ps.map (·.toJson))).depth ≤ depth) :
    Reads (readList (inside ParameterDoc.read depth)) (Json.arr (ps.map (·.toJson))).chars ps :=
  reads_list hd (fun _ _ => begins_obj _) fun p _ _ hm => p.reads hm

/-- The parameters of overloads are read as they are written. -/
theorem ParameterDoc.reads_overloads {overloads : List (List ParameterDoc)} {depth : Nat}
    (hd : (Json.arr (overloads.map fun ps => .arr (ps.map (·.toJson)))).depth ≤ depth) :
    Reads (readList (inside (fun depth => readList (inside ParameterDoc.read depth)) depth))
      (Json.arr (overloads.map fun ps => .arr (ps.map (·.toJson)))).chars overloads :=
  reads_list hd (fun _ _ => begins_arr _) fun _ _ _ hm => ParameterDoc.reads_all hm

/-- Values that are carried along are read as they are written. -/
theorem reads_values {vs : List Json} (hv : ∀ w ∈ vs.flatMap Json.parts, w.Legible) {depth : Nat}
    (hd : (Json.arr vs).depth ≤ depth) :
    Reads (readList (inside readValue depth)) (Json.arr vs).chars vs := by
  have hparts {v : Json} (hmem : v ∈ vs) : ∀ w ∈ v.parts, w.Legible := fun w hw =>
    hv w (List.mem_flatMap.2 ⟨v, hmem, hw⟩)
  have hread : Reads (readList (inside readValue depth)) (Json.arr (vs.map id)).chars vs := by
    refine reads_list (by rwa [List.map_id]) (fun v hmem => ?_) fun v hmem m hm => ?_
    · exact begins_chars (hparts hmem v (self_mem_parts v)).1
    · exact reads_value (hparts hmem) hm
  rwa [List.map_id] at hread

theorem MethodDoc.reads (m : MethodDoc) (hm : ∀ w ∈ m.carried, w.Legible) {depth : Nat}
    (hd : m.toJson.depth ≤ depth) : Reads (MethodDoc.read depth) m.toJson.chars m := by
  obtain ⟨n, rfl, hfields⟩ := depth_obj_le_iff.1 hd
  simp only [List.forall_mem_cons] at hfields
  obtain ⟨-, -, haliases, hparameters, hreturns, hchildren, -⟩ := hfields
  exact reads_record
    (.field rfl rfl ((reads_string m.name).map _)
    (.field rfl rfl ((reads_stringOrNull m.description).map _)
    (.field rfl rfl ((reads_strings haliases).map _)
    (.field rfl rfl ((ParameterDoc.reads_overloads hparameters).map _)
    (.field rfl rfl ((reads_strings hreturns).map _)
    (.field rfl rfl ((reads_values hm hchildren).map _)
    (.field rfl rfl ((reads_bool m.isStatic).map _) (.done rfl))))))))

/-! ### Fields and classes -/

theorem FieldDoc.listToJson_eq_map (fs : List FieldDoc) :
    FieldDoc.listToJson fs = fs.map (·.toJson) := by
  induction fs with
  | nil => rfl
  | cons f fs ih => rw [FieldDoc.listToJson, ih, List.map_cons]

theorem ClassDoc.listToJson_eq_map (cs : List ClassDoc) :
    ClassDoc.listToJson cs = cs.map (·.toJson) := by
  induction cs with
  | nil => rfl
  | cons c cs ih => rw [ClassDoc.listToJson, ih, List.map_cons]

theorem FieldDoc.readAll_eq (depth : Nat) :
    FieldDoc.readAll depth = readList (inside FieldDoc.read depth) := by
  cases depth <;> rfl

theorem ClassDoc.readAll_eq (depth : Nat) :
    ClassDoc.readAll depth = readList (inside ClassDoc.read depth) := by
  cases depth <;> rfl

theorem FieldDoc.begins_toJson (f : FieldDoc) : Begins f.toJson.chars := by
  cases f
  exact begins_obj _

theorem ClassDoc.begins_toJson (c : ClassDoc) : Begins c.toJson.chars := by
  cases c
  exact begins_obj _

/-- A field is read as it is written if the classes below it are. -/
theorem FieldDoc.reads (f : FieldDoc)
    (hchildren : ∀ c ∈ f.children, ∀ n, c.toJson.depth ≤ n →
      Reads (ClassDoc.read n) c.toJson.chars c)
    {depth : Nat} (hd : f.toJson.depth ≤ depth) : Reads (FieldDoc.read depth) f.toJson.chars f := by
  obtain ⟨name, description, type, editable, children⟩ := f
  obtain ⟨n, rfl, hfields⟩ := depth_obj_le_iff.1 hd
  simp only [List.forall_mem_cons, ClassDoc.listToJson_eq_map] at hfields
  obtain ⟨-, -, -, -, hdepth, -⟩ := hfields
  have hclasses : Reads (ClassDoc.readAll n) (Json.arr (ClassDoc.listToJson children)).chars
      children := by
    rw [ClassDoc.readAll_eq, ClassDoc.listToJson_eq_map]
    exact reads_list hdepth (fun c _ => c.begins_toJson) hchildren
  exact reads_record
    (.field rfl rfl ((reads_string name).map _)
    (.field rfl rfl ((reads_stringOrNull description).map _)
    (.field rfl rfl ((reads_string type).map _)
    (.field rfl rfl ((reads_bool editable).map _)
    (.field rfl rfl (hclasses.map _) (.done rfl))))))

/-- **A class is read as it is written.** -/
theorem ClassDoc.reads (c : ClassDoc) (hc : ∀ w ∈ c.carried, w.Legible) {depth : Nat}
    (hd : c.toJson.depth ≤ depth) : Reads (ClassDoc.read depth) c.toJson.chars c := by
  induction c using ClassDoc.induction generalizing depth with
  | mk c ih =>
    have hmethods : ∀ m ∈ c.methods, ∀ w ∈ m.carried, w.Legible := fun m hm w hw =>
      hc w (ClassDoc.mem_carried.2 (.inl ⟨m, hm, hw⟩))
    have hchildren : ∀ f ∈ c.fields, ∀ child ∈ f.children, ∀ n, child.toJson.depth ≤ n →
        Reads (ClassDoc.read n) child.toJson.chars child := fun f hf child hchild n hn =>
      ih f hf child hchild (fun w hw =>
        hc w (ClassDoc.mem_carried.2 (.inr ⟨f, hf, child, hchild, hw⟩))) hn
    obtain ⟨name, description, parent, methods, fields⟩ := c
    obtain ⟨n, rfl, hentries⟩ := depth_obj_le_iff.1 hd
    have hdm : (Json.arr (methods.map (·.toJson))).depth ≤ n := hentries ("methods", _) (by simp)
    have hdf : (Json.arr (FieldDoc.listToJson fields)).depth ≤ n :=
      hentries ("fields", _) (by simp)
    have hreadm : Reads (readList (inside MethodDoc.read n))
        (Json.arr (methods.map (·.toJson))).chars methods :=
      reads_list hdm (fun _ _ => begins_obj _) fun m hm _ hn => m.reads (hmethods m hm) hn
    have hreadf : Reads (FieldDoc.readAll n) (Json.arr (FieldDoc.listToJson fields)).chars
        fields := by
      rw [FieldDoc.listToJson_eq_map] at hdf ⊢
      rw [FieldDoc.readAll_eq]
      exact reads_list hdf (fun f _ => f.begins_toJson) fun f hf _ hn => f.reads (hchildren f hf) hn
    -- a class without a parent is written without the field, and the blank record has none
    cases parent with
    | none =>
      exact reads_record
        (.field rfl rfl ((reads_string name).map _)
        (.field rfl rfl ((reads_stringOrNull description).map _)
        (.field rfl rfl (hreadm.map _)
        (.field rfl rfl (hreadf.map _) (.done rfl)))))
    | some parent =>
      exact reads_record
        (.field rfl rfl ((reads_string name).map _)
        (.field rfl rfl ((reads_stringOrNull description).map _)
        (.field rfl rfl ((reads_stringOrNull parent).map _)
        (.field rfl rfl (hreadm.map _)
        (.field rfl rfl (hreadf.map _) (.done rfl))))))

/-! ### Documentation -/

theorem ListDoc.reads (l : ListDoc) {depth : Nat} (hd : l.toJson.depth ≤ depth) :
    Reads (ListDoc.read depth) l.toJson.chars l := by
  obtain ⟨n, rfl, hfields⟩ := depth_obj_le_iff.1 hd
  simp only [List.forall_mem_cons] at hfields
  obtain ⟨-, -, hentries, -⟩ := hfields
  exact reads_record
    (.field rfl rfl ((reads_string l.name).map _)
    (.field rfl rfl ((reads_stringOrNull l.description).map _)
    (.field rfl rfl ((reads_strings hentries).map _) (.done rfl))))

theorem Docs.reads (d : Docs) (hc : ∀ w ∈ d.carried, w.Legible) {depth : Nat}
    (hd : d.toJson.depth ≤ depth) : Reads (Docs.read depth) d.toJson.chars d := by
  have hglobals : ∀ w ∈ d.globals.carried, w.Legible := fun w hw => hc w (List.mem_append_left _ hw)
  have hmath : ∀ w ∈ d.math.carried, w.Legible := fun w hw => hc w (List.mem_append_right _ hw)
  obtain ⟨n, rfl, hfields⟩ := depth_obj_le_iff.1 hd
  simp only [List.forall_mem_cons] at hfields
  obtain ⟨hdg, hdm, hdl, -⟩ := hfields
  have hlists : Reads (readList (inside ListDoc.read n)) (Json.arr (d.lists.map (·.toJson))).chars
      d.lists :=
    reads_list hdl (fun _ _ => begins_obj _) fun l _ _ hn => l.reads hn
  exact reads_record
    (.field rfl rfl ((d.globals.reads hglobals hdg).map _)
    (.field rfl rfl ((d.math.reads hmath hdm).map _)
    (.field rfl rfl (hlists.map _) (.done rfl))))

/-- A text of which nothing is left has been read as a whole. -/
theorem Json.readAll_of_answers {α : Type} {reader : Reader α} {text : String} {a : α}
    (h : Answers (reader text.toList) a []) : readAll reader text = .ok a := by
  obtain ⟨_, hread⟩ := h
  simp only [readAll, hread]
  rfl

/-- **Reading undoes writing**: documentation is read as it was written, if the values that it
carries along hold no doubles and have their entries sorted by their keys, and no more brackets are
open at once than may be. -/
theorem Docs.ofText_text (d : Docs) (hdouble : ∀ w ∈ d.carried, w.isDouble = false)
    (hkeys : ∀ w ∈ d.carried, w.keys.Pairwise (· < ·)) (hd : d.toJson.depth ≤ depthLimit) :
    Docs.ofText d.text = .ok d := by
  have hlegible : ∀ w ∈ d.carried, w.Legible := fun w hw => ⟨hdouble w hw, hkeys w hw⟩
  have hread := d.reads hlegible hd [] .nil
  have hchars : d.toJson.chars ++ [] = d.text.toList := by
    rw [List.append_nil, text, Json.text, String.toList_ofList]
  rw [hchars] at hread
  exact readAll_of_answers hread

/-- Documentation of a class with a method that carries values along. -/
def carryingDocs : Docs where
  globals :=
    { name := "globals"
      fields := [
        { name := "classes"
          type := "Table"
          children := [
            { name := "Player"
              description := "Who \"plays\"\n\x01"
              parent := some ""
              methods := [
                { name := "getName"
                  parameters := [[], [{ name := "function", type := "Function" }]]
                  returns := ["String"]
                  children := [.obj [("least", .num (.whole leastWhole (by decide))),
                    ("most", .arr [.null, .bool true, .num (.whole greatestWhole (by decide))])]]
                  isStatic := true }] }] }] }
  math := { name := "math", description := "ÅΩ" }
  lists := [{ name := "keys", entries := ["key.a", ""] }]

theorem Docs.ofText_text_carrying :
    (∀ w ∈ carryingDocs.carried, w.isDouble = false) ∧
      (∀ w ∈ carryingDocs.carried, w.keys.Pairwise (· < ·)) ∧
      carryingDocs.toJson.depth ≤ depthLimit ∧ carryingDocs.carried ≠ [] ∧
      Docs.ofText carryingDocs.text = .ok carryingDocs := by
  have hdouble : ∀ w ∈ carryingDocs.carried, w.isDouble = false := by decide
  have hkeys : ∀ w ∈ carryingDocs.carried, w.keys.Pairwise (· < ·) := by decide
  have hdepth : carryingDocs.toJson.depth ≤ depthLimit := by decide
  exact ⟨hdouble, hkeys, hdepth, List.cons_ne_nil _ _,
    carryingDocs.ofText_text hdouble hkeys hdepth⟩

end ApiTypings
