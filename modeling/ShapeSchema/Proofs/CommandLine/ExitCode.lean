import ShapeSchema.CommandLine.Session
import ShapeSchema.Proofs.Conformance.Monotonicity
import ShapeSchema.Proofs.Json.Documents

/-!
# What the exit code means

A session ends with the exit code 2 if it never came to a check, with 0 if the document conforms to
the schema, and with 1 and one message if it does not (`Session.exitCode_of_check`); and a higher
depth limit changes nothing but sessions that ended for a schema that is too deep.

A session reads one source after the other, but as long as these are not both the standard input its
outcome is told by what they hold (`Session.runIn_check`). A schema that an audit accepts is then
safe to check against: a check can neither come to the depth limit nor blame the schema.
-/

namespace ShapeSchema

/-- Where all keys are texts, so are those of the children of a schema. -/
theorem Value.Named.child {schema child : Value} (h : schema.Named)
    (hchild : child ∈ Schema.children schema) : child.Named := by
  cases h with
  | scalar hitems hentries =>
    rw [Schema.children_of_scalar hitems hentries] at hchild
    exact absurd hchild List.not_mem_nil
  | sequence hitems elements =>
    rw [Schema.children_of_items? hitems] at hchild
    exact elements _ (Schema.mem_of_mem_sequenceNodes hchild)
  | object keys items =>
    obtain ⟨key, hmem, -⟩ := Schema.mem_children_object_iff.1 hchild
    exact items _ hmem

/-- Where all keys are texts, so are those in every node of a schema. -/
theorem Value.Named.node {depth : Nat} {schema node : Value}
    (hnode : Schema.NodeAt depth schema node) (h : schema.Named) : node.Named := by
  induction hnode with
  | root => exact h
  | deeper mem _ ih => exact ih (h.child mem)

/-- Where all keys are texts, so are those that a schema has in its object nodes. -/
theorem Value.Named.textKeyed {schema : Value} (h : schema.Named) : Schema.TextKeyed schema := by
  intro depth entries hnode
  cases h.node hnode with
  | scalar _ hentries => cases hentries
  | sequence hitems => cases hitems
  | object keys => exact keys

/-- If a schema whose keys are texts is unsound then a violation tells so. -/
theorem Value.Named.audit_violates {schema : Value} {limit : Int} (h : schema.Named)
    (hunsound : Schema.checkSchema schema "" limit ≠ .nothing) :
    ∃ v, Schema.audit schema limit = .violates v := by
  rw [Schema.checkSchema, Ne, Verdict.answer_eq_nothing_iff] at hunsound
  obtain ⟨v, hv, -⟩ := (Schema.audit_blames hunsound).of_textKeyed h.textKeyed
  exact ⟨v, hv⟩

namespace CommandLine

section

variable (load : Loader) (arguments : Arguments) (files : String → Contents) (input : List UInt8)

/-- What is loaded as the schema. -/
def Arguments.schemaIn : Except String Value :=
  load arguments.schema (Session.contentsIn files input arguments.schema)

/-- What is loaded as the document. -/
def Arguments.documentIn : Except String Value :=
  load arguments.document (Session.contentsIn files input arguments.document)

end

/-- The outcome of a session in which the schema and the document were loaded with the given
results. The document is looked at last. -/
def Outcome.ofLoaded (arguments : Arguments) (limit : Int)
    (schema? document? : Except String Value) : Outcome :=
  match schema? with
  | .error message => .failed ("cannot load schema " ++ arguments.schema ++ ": " ++ message)
  | .ok schema =>
    match Schema.audit schema limit with
    | .violates v => .unsound arguments (v.message "" limit)
    | .faults f => .broken "" f
    | .conforms =>
      match document? with
      | .error message => .failed ("cannot load document " ++ arguments.document ++ ": " ++ message)
      | .ok document =>
        .ofRun arguments limit (Schema.run arguments.strict schema limit document)

namespace Session

variable {load : Loader} {arguments : Arguments} {limit : Int}

/-- A source is read once: if it is the standard input then nothing is left of that. -/
theorem runIn_reading (files : String → Contents) (input : List UInt8) (name : String)
    (next : Contents → Session) :
    runIn files input (.reading (.ofName standardInputName name) next) =
      runIn files (if name = standardInputName then [] else input)
        (next (contentsIn files input name)) := by
  rw [contentsIn, Source.ofName]
  split <;> rfl

/-- The outcome of a session is told by what the sources hold, if they are not both the standard
input. -/
theorem runIn_check (hlimit : arguments.maxDepth = some limit)
    (hsources : ¬(arguments.schema = standardInputName ∧ arguments.document = standardInputName))
    (files : String → Contents) (input : List UInt8) :
    (check load arguments).runIn files input =
      .ofLoaded arguments limit (arguments.schemaIn load files input)
        (arguments.documentIn load files input) := by
  have hdocument : contentsIn files (if arguments.schema = standardInputName then [] else input)
      arguments.document = contentsIn files input arguments.document := by
    split
    · have hother : arguments.document ≠ standardInputName := fun h => hsources ⟨‹_›, h⟩
      rw [contentsIn, contentsIn, Source.ofName, if_neg hother]
    · rfl
  rw [check, runIn_reading, Arguments.schemaIn]
  unfold Outcome.ofLoaded
  cases load arguments.schema (contentsIn files input arguments.schema) with
  | error message => rfl
  | ok schema =>
    dsimp only
    rw [hlimit]
    dsimp only [checkSchema]
    cases Schema.audit schema limit with
    | conforms =>
      dsimp only [checkDocument]
      rw [runIn_reading, hdocument, Arguments.documentIn]
      cases load arguments.document (contentsIn files input arguments.document) <;> rfl
    | violates v => rfl
    | faults f => rfl

end Session

/-! ## Outcomes -/

/-- There is no schema to check against: none was loaded, or the one that was is unsound. -/
def NoSchema (limit : Int) (schema? : Except String Value) : Prop :=
  (∃ message, schema? = .error message) ∨
    ∃ schema, schema? = .ok schema ∧ Schema.checkSchema schema "" limit ≠ .nothing

/-- What an outcome tells of the schema and the document that were loaded. -/
structure Outcome.Tells (outcome : Outcome) (strict : Bool) (limit : Int)
    (schema? document? : Except String Value) : Prop where
  /-- The exit code is 2 if the schema or the document is missing, and only then. -/
  failed_iff : outcome.exitCode = 2 ∧ outcome.output = "" ↔
    NoSchema limit schema? ∨ ∃ message, document? = .error message
  /-- With this exit code there is one message, and nothing else. -/
  exists_message : outcome.exitCode = 2 → ∃ message, outcome = .failed message
  /-- A document is accepted if it conforms to the schema, and only then. -/
  accepted_iff : ∀ schema document, schema? = .ok schema → document? = .ok document →
    Schema.checkSchema schema "" limit = .nothing →
    (outcome = ⟨0, "OK\n", ""⟩ ↔ Schema.Accepts strict schema document)
  /-- Of a document that does not conform, what is told is the reason of one report, which blames
  neither the schema nor the limit. -/
  rejected : ∀ schema document, schema? = .ok schema → document? = .ok document →
    Schema.checkSchema schema "" limit = .nothing → ¬Schema.Accepts strict schema document →
    ∃ r, Schema.check strict schema "" limit document = .report r ∧
      (∃ c : ReasonCode, r.code = .string c.text ∧ c ≠ .invalidSchema ∧ c ≠ .maxDepthExceeded) ∧
      outcome = ⟨1, "", r.reason ++ "\n"⟩

namespace Outcome

variable {arguments : Arguments} {limit limit' : Int} {schema : Value}
  {schema? document? : Except String Value}

/-- What a session without a log tells of a verdict. -/
def ofVerdict (limit : Int) : Verdict → Outcome
  | .conforms => ⟨0, "OK\n", ""⟩
  | .violates v => ⟨1, "", v.message "" limit ++ "\n"⟩
  | .faults f => broken "" f

/-- Without a log it is the verdict of a run that is told. -/
theorem ofRun_eq_ofVerdict (hquiet : arguments.verbose = false) (limit : Int) (r : Run) :
    ofRun arguments limit r = ofVerdict limit r.verdict := by
  unfold ofRun
  rw [hquiet]
  cases r.verdict with
  | violates v => exact congrArg (Outcome.mk 1 "") (congrArg (· ++ "\n") String.empty_append)
  | _ => rfl

/-- What is told of a verdict depends on the limit only where no room was left. -/
theorem ofVerdict_limit {verdict : Verdict} (h : ¬verdict.TooDeep) (limit limit' : Int) :
    ofVerdict limit verdict = ofVerdict limit' verdict := by
  cases verdict with
  | violates v =>
    have hproblem : v.problem ≠ .tooDeep := fun hproblem => h ⟨v, rfl, hproblem⟩
    rw [ofVerdict, ofVerdict, Violation.message_limit hproblem "" limit limit']
  | _ => rfl

/-- A session that fails for its schema does not look at the document. -/
theorem exists_ofLoaded_eq_failed (hnamed : ∀ schema, schema? = .ok schema → schema.Named)
    (h : NoSchema limit schema?) :
    ∃ message, ∀ document?, ofLoaded arguments limit schema? document? = .failed message := by
  rcases h with ⟨message, rfl⟩ | ⟨schema, rfl, hunsound⟩
  · exact ⟨_, fun _ => rfl⟩
  · obtain ⟨v, hv⟩ := (hnamed schema rfl).audit_violates hunsound
    refine ⟨"invalid schema " ++ arguments.schema ++ ": " ++ v.message "" limit,
      fun document? => ?_⟩
    unfold ofLoaded
    dsimp only
    rw [hv]
    rfl

/-- With a sound schema it is the document that decides. -/
theorem ofLoaded_of_sound (hsound : Schema.checkSchema schema "" limit = .nothing) :
    ofLoaded arguments limit (.ok schema) document? =
      match document? with
      | .error message => .failed ("cannot load document " ++ arguments.document ++ ": " ++ message)
      | .ok document =>
        .ofRun arguments limit (Schema.run arguments.strict schema limit document) := by
  rw [Schema.checkSchema, Verdict.answer_eq_nothing_iff] at hsound
  unfold ofLoaded
  dsimp only
  rw [hsound]

/-- A document that conforms to a sound schema is told so. -/
theorem ofLoaded_of_accepts (hquiet : arguments.verbose = false)
    (hsound : Schema.checkSchema schema "" limit = .nothing) {document : Value}
    (haccepts : Schema.Accepts arguments.strict schema document) :
    ofLoaded arguments limit (.ok schema) (.ok document) = ⟨0, "OK\n", ""⟩ := by
  rw [← Schema.check_eq_nothing_iff_accepts hsound arguments.strict "" document, Schema.check,
    Verdict.answer_eq_nothing_iff] at haccepts
  rw [ofLoaded_of_sound hsound]
  dsimp only
  rw [ofRun_eq_ofVerdict hquiet, haccepts, ofVerdict]

/-- A document that does not conform to a sound schema is told the report of the check, which blames
the document. -/
theorem ofLoaded_of_not_accepts (hquiet : arguments.verbose = false)
    (hsound : Schema.checkSchema schema "" limit = .nothing) {document : Value}
    (hrejects : ¬Schema.Accepts arguments.strict schema document) :
    ∃ r, Schema.check arguments.strict schema "" limit document = .report r ∧
      (∃ c : ReasonCode, r.code = .string c.text ∧ c ≠ .invalidSchema ∧ c ≠ .maxDepthExceeded) ∧
      ofLoaded arguments limit (.ok schema) (.ok document) = ⟨1, "", r.reason ++ "\n"⟩ := by
  obtain ⟨hschema, hheight⟩ := Schema.wellFormed_of_checkSchema hsound
  rw [← Schema.check_eq_nothing_iff_accepts hsound arguments.strict "" document, Schema.check,
    Verdict.answer_eq_nothing_iff] at hrejects
  rcases Schema.run_of_wellFormed arguments.strict hschema hheight document with
    hconforms | ⟨v, hv, hcode⟩
  · exact absurd hconforms hrejects
  · refine ⟨v.report "" limit, by rw [Schema.check, hv]; rfl, ⟨v.problem.code, rfl, ?_, ?_⟩, ?_⟩
    · intro hinvalid
      rw [hinvalid] at hcode
      exact absurd hcode (by decide)
    · intro hdeep
      rw [hdeep] at hcode
      exact absurd hcode (by decide)
    · rw [ofLoaded_of_sound hsound]
      dsimp only
      rw [ofRun_eq_ofVerdict hquiet, hv]
      rfl

/-- Under a higher limit a session that did not end for a schema that is too deep has the same
outcome. -/
theorem ofLoaded_of_le_limit (hquiet : arguments.verbose = false) (hlimit : limit ≤ limit')
    (hdeep : ∀ schema, schema? = .ok schema →
      ¬(Schema.checkSchema schema "" limit).HasCode .maxDepthExceeded) :
    ofLoaded { arguments with maxDepth := some limit' } limit' schema? document? =
      ofLoaded arguments limit schema? document? := by
  cases schema? with
  | error message => rfl
  | ok schema =>
    have hschema := hdeep schema rfl
    rw [Schema.checkSchema, Verdict.answer_hasCode_maxDepthExceeded_iff] at hschema
    have haudit := (Schema.audit_outlasts schema hlimit).resolve_left hschema
    unfold ofLoaded
    dsimp only
    rw [haudit]
    cases hverdict : Schema.audit schema limit with
    | violates v =>
      have hproblem : v.problem ≠ .tooDeep := fun hproblem => hschema ⟨v, hverdict, hproblem⟩
      dsimp only
      rw [Violation.message_limit hproblem "" limit' limit]
      rfl
    | faults f => rfl
    | conforms =>
      cases document? with
      | error message => rfl
      | ok document =>
        have hheight := ((Schema.audit_eq_conforms_iff schema limit).1 hverdict).2
        have hnotDeep := Schema.run_not_tooDeep arguments.strict hheight document
        have hrun := (Schema.run_outlasts arguments.strict schema hlimit document).resolve_left
          hnotDeep
        have hquiet' : { arguments with maxDepth := some limit' }.verbose = false := hquiet
        dsimp only
        rw [hrun.1, ofRun_eq_ofVerdict hquiet, ofRun_eq_ofVerdict hquiet',
          ofVerdict_limit hnotDeep limit' limit]

/-- If there is a schema to check against then it is a sound one. -/
theorem exists_sound_of_not_noSchema (h : ¬NoSchema limit schema?) :
    ∃ schema, schema? = .ok schema ∧ Schema.checkSchema schema "" limit = .nothing := by
  cases schema? with
  | error message => exact absurd (.inl ⟨message, rfl⟩) h
  | ok schema => exact ⟨schema, rfl, by_contra fun hunsound => h (.inr ⟨schema, rfl, hunsound⟩)⟩

/-- A session that does not fail has a sound schema. -/
theorem exists_sound_of_exitCode (hnamed : ∀ schema, schema? = .ok schema → schema.Named)
    (h : (ofLoaded arguments limit schema? document?).exitCode ≠ 2) :
    ∃ schema, schema? = .ok schema ∧ Schema.checkSchema schema "" limit = .nothing := by
  refine exists_sound_of_not_noSchema fun hnone => h ?_
  obtain ⟨message, hmessage⟩ := exists_ofLoaded_eq_failed hnamed hnone
  rw [hmessage document?]
  rfl

/-- The outcome tells what became of the check. -/
theorem ofLoaded_tells (hquiet : arguments.verbose = false)
    (hnamed : ∀ schema, schema? = .ok schema → schema.Named) :
    (ofLoaded arguments limit schema? document?).Tells arguments.strict limit schema?
      document? := by
  -- A session fails for its schema, for its document, or not at all.
  have hfailed (h : NoSchema limit schema? ∨ ∃ message, document? = .error message) :
      ∃ message, ofLoaded arguments limit schema? document? = .failed message := by
    by_cases hschema : NoSchema limit schema?
    · obtain ⟨message, hmessage⟩ := exists_ofLoaded_eq_failed hnamed hschema
      exact ⟨message, hmessage document?⟩
    · obtain ⟨schema, rfl, hsound⟩ := exists_sound_of_not_noSchema hschema
      obtain ⟨message, rfl⟩ := h.resolve_left hschema
      exact ⟨_, ofLoaded_of_sound hsound⟩
  have hcode (h : ¬(NoSchema limit schema? ∨ ∃ message, document? = .error message)) :
      (ofLoaded arguments limit schema? document?).exitCode ≠ 2 := by
    obtain ⟨hschema, hdocument⟩ := not_or.1 h
    obtain ⟨schema, rfl, hsound⟩ := exists_sound_of_not_noSchema hschema
    cases document? with
    | error message => exact absurd ⟨message, rfl⟩ hdocument
    | ok document =>
      by_cases haccepts : Schema.Accepts arguments.strict schema document
      · rw [ofLoaded_of_accepts hquiet hsound haccepts]
        decide
      · obtain ⟨r, -, -, houtcome⟩ := ofLoaded_of_not_accepts hquiet hsound haccepts
        rw [houtcome]
        exact show (1 : UInt8) ≠ 2 by decide
  refine ⟨⟨fun h => by_contra fun hnot => hcode hnot h.1, fun h => ?_⟩, fun h => ?_, ?_, ?_⟩
  · obtain ⟨message, hmessage⟩ := hfailed h
    rw [hmessage]
    exact ⟨rfl, rfl⟩
  · exact hfailed (by_contra fun hnot => hcode hnot h)
  · rintro schema document rfl rfl hsound
    refine ⟨fun h => by_contra fun hrejects => ?_, ofLoaded_of_accepts hquiet hsound⟩
    obtain ⟨r, -, -, houtcome⟩ := ofLoaded_of_not_accepts hquiet hsound hrejects
    rw [houtcome] at h
    exact absurd (congrArg Outcome.exitCode h) (show (1 : UInt8) ≠ 0 by decide)
  · rintro schema document rfl rfl hsound hrejects
    exact ofLoaded_of_not_accepts hquiet hsound hrejects

end Outcome

namespace Session

/-- With a loader whose values have texts as keys, and with sources that are not both the standard
input, a session without a log ends with an outcome that tells what became of the check. If it fails
for its schema then it ends so with any document; and it ends so under any higher limit, unless the
schema has been found to be too deep. -/
theorem exitCode_of_check {load : Loader}
    (hnamed : ∀ name contents v, load name contents = .ok v → v.Named)
    {arguments : Arguments} {limit : Int} (hlimit : arguments.maxDepth = some limit)
    (hquiet : arguments.verbose = false)
    (hsources : ¬(arguments.schema = standardInputName ∧ arguments.document = standardInputName))
    (files : String → Contents) (input : List UInt8) :
    ((check load arguments).runIn files input).Tells arguments.strict limit
        (arguments.schemaIn load files input) (arguments.documentIn load files input) ∧
      (NoSchema limit (arguments.schemaIn load files input) → ∀ files' input',
        arguments.schemaIn load files' input' = arguments.schemaIn load files input →
        (check load arguments).runIn files' input' = (check load arguments).runIn files input) ∧
      ∀ limit', limit ≤ limit' →
        ((check load arguments).runIn files input).exitCode ≠ 2 ∨
          (∀ schema, arguments.schemaIn load files input = .ok schema →
            ¬(Schema.checkSchema schema "" limit).HasCode .maxDepthExceeded) →
        (check load { arguments with maxDepth := some limit' }).runIn files input =
          (check load arguments).runIn files input := by
  have hschema (schema : Value) (h : arguments.schemaIn load files input = .ok schema) :
      schema.Named := hnamed _ _ _ h
  rw [runIn_check hlimit hsources]
  refine ⟨Outcome.ofLoaded_tells hquiet hschema, fun hnone files' input' hsame => ?_,
    fun limit' hle h => ?_⟩
  · obtain ⟨message, hmessage⟩ := Outcome.exists_ofLoaded_eq_failed hschema hnone
    rw [runIn_check hlimit hsources, hsame, hmessage, hmessage]
  · have hdeep (schema : Value) (hloaded : arguments.schemaIn load files input = .ok schema) :
        ¬(Schema.checkSchema schema "" limit).HasCode .maxDepthExceeded := by
      rcases h with hcode | hdeep
      · obtain ⟨sound, hsame, hsound⟩ := Outcome.exists_sound_of_exitCode hschema hcode
        obtain rfl := Except.ok.inj (hloaded.symm.trans hsame)
        rw [hsound]
        rintro ⟨r, hr, -⟩
        cases hr
      · exact hdeep schema hloaded
    have hhigher : ({ arguments with maxDepth := some limit' } : Arguments).maxDepth =
        some limit' := rfl
    rw [runIn_check hhigher hsources]
    exact Outcome.ofLoaded_of_le_limit hquiet hle hdeep

/-- A text is asked for, and a number comes from the standard input. -/
theorem exitCode_of_check_number :
    let arguments : Arguments := ⟨"s", standardInputName, true, some 1, false⟩
    let files : String → Contents := fun _ => .ok [34, 115, 116, 114, 105, 110, 103, 34]
    ((check documentLoader arguments).runIn files [53]).Tells true 1 (.ok (.string "string"))
        (.ok (.integer 5)) ∧
      (check documentLoader arguments).runIn files [53] =
        ⟨1, "", "'': expected type 'string', got 'number'\n"⟩ ∧
      (check documentLoader { arguments with maxDepth := some 2 }).runIn files [53] =
        (check documentLoader arguments).runIn files [53] := by
  intro arguments files
  have hschema : arguments.schemaIn documentLoader files [53] = .ok (.string "string") := by
    with_unfolding_all rfl
  have hdocument : arguments.documentIn documentLoader files [53] = .ok (.integer 5) := by
    with_unfolding_all rfl
  have hsources : ¬(arguments.schema = standardInputName ∧
      arguments.document = standardInputName) := by decide
  have houtcome : (check documentLoader arguments).runIn files [53] =
      ⟨1, "", "'': expected type 'string', got 'number'\n"⟩ := by
    rw [runIn_check rfl hsources, hschema, hdocument]
    rfl
  have hnamed (name : String) (contents : Contents) (v : Value)
      (h : documentLoader name contents = .ok v) : v.Named := documentLoader_named h
  obtain ⟨htells, -, hhigher⟩ := exitCode_of_check hnamed rfl rfl hsources files [53]
  rw [hschema, hdocument] at htells
  refine ⟨htells, houtcome, hhigher 2 (by decide) (.inl ?_)⟩
  rw [houtcome]
  decide

end Session

end CommandLine

end ShapeSchema
