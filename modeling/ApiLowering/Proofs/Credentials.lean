import ApiLowering.Proofs.Declared

/-!
Credentials. The headers that security schemes are sent in are reserved, and a header parameter is
left out when its name is reserved in any letter case. The test is on the name that the parameter has
on the wire, so no other name that is given to a parameter brings a credential back.
-/

set_option autoImplicit false

namespace ApiLowering

variable {options : Options} {d : ApiDocument} {file : Ir.File}

-- The header of every scheme of the representation is reserved.
theorem ApiDocument.header_reserved (done : d.lower options = .ok file) {s : Ir.SecurityScheme}
    (scheme : s ∈ Entries.values file.securitySchemes) :
    Text.lowerAscii s.headerName ∈ (d.loweringScope options).reserved := by
  obtain ⟨title, description, parts, -, rfl⟩ := staged_of_lower done
  refine List.mem_map_of_mem (sortedSet_holds ?_)
  exact List.mem_map_of_mem scheme

-- A header that is sent is not reserved on the wire.
theorem Site.sends_unreserved {scope : Scope} {s : Site} {p : Ir.Parameter}
    (sends : s.Sends scope .header p) : Text.lowerAscii p.name.wireValue ∉ scope.reserved := by
  obtain ⟨node, -, q, -, sent, located, made⟩ := sends
  have wire : p.name.wireValue = q.name := congrArg Prod.fst (ParameterLowering.lowerOne_place made)
  rw [wire]
  intro here
  rw [ParameterLowering.isSent, located] at sent
  have reserved : scope.isReserved q.name = true := List.contains_iff_mem.mpr here
  rw [reserved] at sent
  cases sent

/-- No header parameter of an endpoint or a webhook is one that carries a credential, in whatever
letter case either of them is written. -/
theorem credentials_hidden (done : d.lower options = .ok file) {h : Ir.Parameter}
    (listed : (∃ e ∈ file.endpoints, h ∈ e.headers) ∨ ∃ w ∈ file.webhooks, h ∈ w.headers)
    {s : Ir.SecurityScheme} (scheme : s ∈ Entries.values file.securitySchemes) :
    Text.lowerAscii h.name.wireValue ≠ Text.lowerAscii s.headerName := by
  have reserved := ApiDocument.header_reserved done scheme
  have unreserved : Text.lowerAscii h.name.wireValue ∉ (d.loweringScope options).reserved := by
    rcases listed with ⟨e, endpoint, header⟩ | ⟨w, webhook, header⟩
    · obtain ⟨site, -, -, made⟩ := ApiDocument.endpoint_site done endpoint
      exact Site.sends_unreserved ((Site.becomes_ok made).2 .header h header)
    · obtain ⟨site, -, -, raised⟩ := ApiDocument.webhook_site done webhook
      exact Site.sends_unreserved ((Site.raises_ok raised).2 h header)
  exact fun same => unreserved (same ▸ reserved)

def headerNamed (name : String) (extensions : Entries Json) : ParameterNode :=
  .inline ⟨name, .header, none, false, none, none, extensions⟩

-- An item that declares the header of a scheme, and an operation that declares it once more, by way of
-- two components and under another name.
def lock : ApiDocument :=
  { ApiDocument.ofSchemas [] with
    paths := [("/lock", some { PathItem.record.blank with
      parameters := [headerNamed "x-key" []]
      get := some { Operation.record.blank with
        parameters := [.reference "#/components/parameters/Key", headerNamed "X-Trace" []] } })]
    components := some { Components.record.blank with
      parameters := [
        ("Key", .reference "#/components/parameters/Inner"),
        ("Inner", headerNamed "X-KEY" [(Extension.parameterNameKey, .text "trace")])]
      securitySchemes := [("key", .inline { SecurityScheme.record.blank with
        type := .apiKey
        location := some .header
        name := some "X-Key"
        extensions := [(Extension.headerKey, .object [("name", .text "secret")])] })] } }

theorem lock_hidden :
    ∃ file e h s, lock.lower .default = .ok file ∧ e ∈ file.endpoints ∧ e.headers = [h] ∧
      s ∈ Entries.values file.securitySchemes ∧
      h.name.wireValue = "X-Trace" ∧ s.headerName = "X-Key" ∧
      Text.lowerAscii h.name.wireValue ≠ Text.lowerAscii s.headerName := by
  have lowers : (lock.lower .default).toOption.any (fun file => decide (
      file.endpoints.map (fun e => Ir.wireNames e.headers) = [["X-Trace"]] ∧
        (Entries.values file.securitySchemes).map Ir.SecurityScheme.headerName = ["X-Key"])) =
      true := by
    decide +kernel
  obtain ⟨file, done, checked⟩ := ok_of_any lowers
  obtain ⟨names, headers⟩ := of_decide_eq_true checked
  obtain ⟨e, listed, named⟩ := List.map_eq_singleton_iff.mp names
  obtain ⟨s, schemes, sent⟩ := List.map_eq_singleton_iff.mp headers
  obtain ⟨h, only, trace⟩ := List.map_eq_singleton_iff.mp named
  have endpoint : e ∈ file.endpoints := listed ▸ List.mem_singleton_self e
  have header : h ∈ e.headers := only ▸ List.mem_singleton_self h
  have scheme : s ∈ Entries.values file.securitySchemes := schemes ▸ List.mem_singleton_self s
  exact ⟨file, e, h, s, done, endpoint, only, scheme, trace, sent,
    credentials_hidden done (.inl ⟨e, endpoint, header⟩) scheme⟩

end ApiLowering
