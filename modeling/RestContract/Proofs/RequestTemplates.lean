-- The template of a request is JSON. Whatever the names of the captures and query parameters are,
-- reading the template gives back the object that it was written from, so a name with quotes,
-- backslashes or control characters can neither break the template nor add to it.
import RestContract.Proofs.JsonText
import RestContract.Route.Resolution

namespace RestContract

/-! ## Maps of texts -/

namespace Json

section TextMap

variable (es : Entries String String)

theorem numberFree_str (s : String) : (str s).NumberFree :=
  numberFree_iff.mpr ⟨rfl, List.forall_mem_nil _⟩

theorem numberFree_textMap : (textMap es).NumberFree := by
  refine numberFree_iff.mpr ⟨rfl, ?_⟩
  simp only [textMap, parts, Entries.values, List.map_map, List.forall_mem_map]
  exact fun e _ => numberFree_str e.2

theorem depth_textMap : (textMap es).depth = 1 := by
  show depthEntries (es.map fun e => (e.1, str e.2)) + 1 = 1
  induction es with
  | nil => rfl
  | cons e es ih => simpa [depthEntries, depth] using ih

theorem normal_textMap {es : Entries String String} (h : (Entries.keys es).Nodup) :
    (textMap es).normal = textMap es := by
  refine normal_obj_of_nodup ?_ (List.forall_mem_map.mpr fun _ _ => rfl)
  rwa [Entries.keys_map_values]

end TextMap

end Json

/-! ## The envelope of a request -/

namespace ComputeDefinition

/-- Each name with what the given expression makes of it. -/
def named (expression : String → String) (names : List String) : Entries String String :=
  names.map fun n => (n, expression n)

/-- The envelope that looks up each capture and each query parameter under its name. -/
def envelopeOf (captures query : List String) : Json := .obj [
  ("params", .textMap (named (fun p => "$input.params().path.get('" ++ p ++ "')") captures)),
  ("query", .textMap (named (fun q => "$input.params().querystring.get('" ++ q ++ "')") query)),
  ("body", .str "$input.json(\"$\")")]

section Envelope

variable (captures query : List String)

/-- A name that comes again is looked up once, where it first came. -/
theorem envelope_eq :
    envelope captures query = envelopeOf captures.eraseDups query.eraseDups := by
  have hpath : "$input.params()." ++ "path" ++ ".get('" = "$input.params().path.get('" := rfl
  have hquery : "$input.params()." ++ "querystring" ++ ".get('" =
      "$input.params().querystring.get('" := rfl
  simp only [envelope, lookups, hpath, hquery]
  rw [Entries.ofPairs_map_key, Entries.ofPairs_map_key]
  simp [envelopeOf, named, Json.textMap, Function.comp_def]

theorem numberFree_envelopeOf : (envelopeOf captures query).NumberFree := by
  refine Json.numberFree_iff.mpr ⟨rfl, ?_⟩
  simp only [envelopeOf, Json.parts, Entries.values, List.map_cons, List.map_nil,
    List.forall_mem_cons]
  exact ⟨Json.numberFree_textMap _, Json.numberFree_textMap _, Json.numberFree_str _,
    List.forall_mem_nil _⟩

theorem depth_envelopeOf : (envelopeOf captures query).depth = 2 := by
  simp [envelopeOf, Json.depth, Json.depthEntries, Json.depth_textMap]

variable {captures query}

theorem normal_envelopeOf (hcaptures : captures.Nodup) (hquery : query.Nodup) :
    (envelopeOf captures query).normal = envelopeOf captures query := by
  have hnamed : ∀ f : String → String, ∀ names : List String, names.Nodup →
      (Json.textMap (named f names)).normal = Json.textMap (named f names) := by
    intro f names h
    refine Json.normal_textMap ?_
    simpa [named, Entries.keys, Function.comp_def] using h
  refine Json.normal_obj_of_nodup (by simp [Entries.keys]) ?_
  simp only [List.forall_mem_cons]
  exact ⟨hnamed _ _ hcaptures, hnamed _ _ hquery, rfl, List.forall_mem_nil _⟩

end Envelope

/-! ## The law -/

/-- The template of a request is JSON text of the envelope with each declared name once, in the
order of the names, and in this text no key comes again. Without templating the compute unit is
invoked in the same way, with neither parameters nor templates. -/
theorem a_request_template_reads_as_the_declared_names (c : ComputeDefinition)
    (names : List String) : ∃ templated plain text,
      (ResourceDefinition.compute c).resolve (.pathParams names) = .lambda templated ∧
      templated.requestTemplates = [("application/json", text)] ∧
      Json.read? text = some (envelopeOf names.eraseDups (Entries.keys c.queryParams).eraseDups) ∧
      Json.parse? text = some (envelopeOf names.eraseDups (Entries.keys c.queryParams).eraseDups) ∧
      (ResourceDefinition.compute c).resolve .skipTemplating = .lambda plain ∧
      plain = { templated with requestParameters := [], requestTemplates := [] } ∧
      plain.function = c.function ∧ plain.proxy = c.options.proxy.getD true ∧
      plain.timeoutMs = c.options.timeoutMs := by
  have hdepth : (envelopeOf names.eraseDups (Entries.keys c.queryParams).eraseDups).depth ≤
      Json.maxDepth := by
    rw [depth_envelopeOf]
    decide
  have hnormal := normal_envelopeOf (Entries.nodup_eraseDups names)
    (Entries.nodup_eraseDups (Entries.keys c.queryParams))
  refine ⟨_, _, _, rfl, rfl, ?_, ?_, rfl, rfl, rfl, rfl, ?_⟩
  · rw [envelope_eq]
    exact Json.read?_compact (numberFree_envelopeOf _ _) hdepth
  · rw [envelope_eq]
    exact Json.parse?_compact (numberFree_envelopeOf _ _) hdepth hnormal
  · exact Option.orElse_eq_or.trans Option.or_none

/-- A name with a quote and a backslash. -/
example : (envelopeOf ["a\"b\\", "a\"b\\"].eraseDups []).compact =
    "\x7b\"params\":\x7b\"a\\\"b\\\\\":\"$input.params().path.get('a\\\"b\\\\')\"\x7d," ++
      "\"query\":\x7b\x7d,\"body\":\"$input.json(\\\"$\\\")\"\x7d" := by decide

end ComputeDefinition

end RestContract
