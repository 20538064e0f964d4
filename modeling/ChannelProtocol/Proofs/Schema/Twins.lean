-- Types and validators that are made from the same shape.
import ChannelProtocol.Proofs.Schema.References

namespace ChannelProtocol.Schema

/-- A type and a validator for the same payloads. Whether a field may be left out is a mark on
the one side and an option on the other. -/
inductive Twin (doc : Document) : TypeScript.Ty → Validator → Prop
  | string : Twin doc (.keyword .string) .string
  | boolean : Twin doc (.keyword .boolean) .boolean
  | number : Twin doc (.keyword .number) .number
  | undefined : Twin doc (.keyword .undefined) .undefined
  | binary : Twin doc (.ref "Binary") .binary
  | any : Twin doc (.keyword .any) .any
  | named {name : String} : doc.isNamedType name → Twin doc (.ref name) (.named name)
  | anyChannel : Twin doc (.ref "Channel") .anyChannel
  | channel {name : String} : doc.isChannel name →
      Twin doc (.ref (channelTypeName name)) (.channel [name])
  | array {ty : TypeScript.Ty} {validator : Validator} : Twin doc ty validator →
      Twin doc (.array ty) (.array validator)
  | literals (texts : List String) : Twin doc (.literals texts) (.enum texts)
  | object {fields : List ResolvedField} :
      (∀ field ∈ fields, Twin doc field.type.ts field.type.validator) →
      Twin doc (objectTs fields) (objectValidator fields)

namespace Document

theorem mem_of_resolveProperties {doc : Document} {path : List String} {location : Location}
    {list : List Property} {inlined : List Inlined} {fields : List ResolvedField}
    (expanded : doc.expand location list = .ok inlined)
    (resolved : doc.resolveProperties path location list = .ok fields) {field : ResolvedField}
    (mem : field ∈ fields) :
    ∃ source ∈ inlined, source.route.find? path.contains = none ∧
      doc.resolveShape (path ++ source.route) (.member location source.name) source.ty.shape =
        .ok (field.type.ts, field.type.validator) := by
  rw [resolveProperties_eq, expanded] at resolved
  have same := mapM_eq_ok_iff.mp resolved
  obtain ⟨source, hs, h⟩ :
      ∃ source ∈ inlined, doc.resolveField path location source = .ok field := by
    rw [← List.mem_map, same]
    exact List.mem_map_of_mem mem
  refine ⟨source, hs, ?_⟩
  unfold resolveField at h
  split at h
  · cases h
  · rename_i fresh
    obtain ⟨⟨ts, validator⟩, shape, h⟩ := bind_eq_ok_iff.mp h
    cases h
    exact ⟨fresh, shape⟩

/-- What a shape is resolved to are twins, and so is what each field of a list is resolved to. -/
theorem twin_of_resolved (doc : Document) :
    (∀ path location shape, ∀ ty validator,
      doc.resolveShape path location shape = .ok (ty, validator) → Twin doc ty validator) ∧
    ∀ path location list, ∀ fields, doc.resolveProperties path location list = .ok fields →
      ∀ field ∈ fields, Twin doc field.type.ts field.type.validator := by
  apply resolve_induction doc
  case leaf =>
    intro path location shape leaf ty validator h
    cases shape with
    | reference | channel | array | object => cases leaf
    | string | boolean | number | undefined | binary | any | anyChannel | literals =>
      rw [resolveShape] at h
      cases h
      constructor
  case reference =>
    intro path location name ty validator h
    rw [resolveShape] at h
    have known := succeeds_ite_iff.mp ⟨_, h⟩
    rw [if_pos known] at h
    cases h
    exact .named known
  case channel =>
    intro path location name ty validator h
    rw [resolveShape] at h
    have known := succeeds_ite_iff.mp ⟨_, h⟩
    rw [if_pos known] at h
    cases h
    exact .channel known
  case array =>
    intro path location element optional ih ty validator h
    rw [resolveShape] at h
    obtain ⟨⟨ts, inner⟩, he, h⟩ := bind_eq_ok_iff.mp h
    cases h
    exact .array (ih ts inner he)
  case object =>
    intro path location list ih ty validator h
    rw [resolveShape] at h
    obtain ⟨fields, hf, h⟩ := bind_eq_ok_iff.mp h
    cases h
    exact .object (ih fields hf)
  case refused =>
    intro path location list error failed fields h
    rw [resolveProperties_eq, failed] at h
    cases h
  case expanded =>
    intro path location list inlined expanded ih fields h field mem
    obtain ⟨source, hs, fresh, shape⟩ := mem_of_resolveProperties expanded h mem
    exact ih source hs fresh _ _ shape

theorem twin_of_resolve {doc : Document} {location : Location} {list : List Property}
    {fields : List ResolvedField} (h : doc.resolve location list = .ok fields) :
    Twin doc (objectTs fields) (objectValidator fields) :=
  .object ((twin_of_resolved doc).2 [] location list fields h)

end Document

end ChannelProtocol.Schema
