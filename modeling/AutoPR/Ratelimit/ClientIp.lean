import AutoPR.Library.Python
import AutoPR.Ratelimit.Address

/-! The address that the limiter and the audit log go by. `X-Forwarded-For` is read only
from a trusted peer, from the right, as far as the first hop that is not trusted. -/
namespace AutoPR.Ratelimit
open Python

def trusts (parsed : Address) (entry : String) : Bool :=
  if '/' ∈ entry.toList then (ipNetwork entry).any (·.contains parsed)
  else ipAddress entry = some parsed

def isTrustedProxy (addr : String) (trusted : List String) : Bool :=
  if trusted = [] then false
  else
    match ipAddress addr with
    | none => false
    | some parsed => trusted.any (trusts parsed)

/-- The elements of the header, without white space around them, and none that is empty. -/
def hops (forwardedFor : String) : List String :=
  ((forwardedFor.toList.splitOn ',').map fun hop => strip (String.ofList hop)).filter (· ≠ "")

/-- The loop over the hops, from the right; `none` when all of them are trusted. -/
def walkHops (peer : String) (trusted : List String) : List String → Option String
  | [] => none
  | hop :: rest =>
      if isTrustedProxy hop trusted then walkHops peer trusted rest
      else
        match ipAddress hop with
        | none => some peer
        | some _ => some hop

def resolveClientIp (peer : String) (forwardedFor : Option String) (trusted : List String) :
    String :=
  if peer = "" then "unknown"
  else
    match forwardedFor with
    | none => peer
    | some header =>
        if header = "" || !isTrustedProxy peer trusted then peer
        else
          match walkHops peer trusted (hops header).reverse with
          | some client => client
          | none => (hops header).head?.getD peer

section
variable {peer : String} {trusted : List String}

theorem isTrustedProxy_parses {addr : String} (h : isTrustedProxy addr trusted = true) :
    (ipAddress addr).isSome = true := by
  unfold isTrustedProxy at h
  split at h
  · cases h
  · split at h
    · cases h
    · rename_i hparsed
      rw [hparsed]
      rfl

theorem hops_append (front back : List Char) :
    hops (String.ofList (front ++ ',' :: back)) =
      hops (String.ofList front) ++ hops (String.ofList back) := by
  unfold hops
  simp only [String.toList_ofList, List.splitOn_append_cons_self, List.map_append,
    List.filter_append]

theorem hops_single {text : List Char} (h : ',' ∉ text) :
    hops (String.ofList text) = [strip (String.ofList text)].filter (· ≠ "") := by
  unfold hops
  rw [String.toList_ofList, List.splitOn_eq_singleton h]
  rfl

theorem walkHops_trusted {front rest : List String}
    (h : ∀ hop ∈ front, isTrustedProxy hop trusted = true) :
    walkHops peer trusted (front ++ rest) = walkHops peer trusted rest := by
  induction front with
  | nil => rfl
  | cons hop front ih =>
    obtain ⟨hhop, hfront⟩ := List.forall_mem_cons.mp h
    rw [List.cons_append, walkHops, if_pos hhop]
    exact ih hfront

theorem walkHops_some {list : List String} {client : String}
    (h : walkHops peer trusted list = some client) :
    client = peer ∨ (client ∈ list ∧ (ipAddress client).isSome = true) := by
  induction list with
  | nil => cases h
  | cons hop rest ih =>
    unfold walkHops at h
    split at h
    · obtain hpeer | ⟨hmem, hparses⟩ := ih h
      · exact .inl hpeer
      · exact .inr ⟨List.mem_cons_of_mem hop hmem, hparses⟩
    · split at h
      · exact .inl (Option.some.inj h).symm
      · rename_i hparsed
        obtain rfl := Option.some.inj h
        refine .inr ⟨List.mem_cons_self, ?_⟩
        rw [hparsed]
        rfl

theorem walkHops_none {list : List String} (h : walkHops peer trusted list = none) :
    ∀ hop ∈ list, isTrustedProxy hop trusted = true := by
  induction list with
  | nil =>
    intro hop hmem
    cases hmem
  | cons hop rest ih =>
    unfold walkHops at h
    split at h
    · rename_i hhop
      exact List.forall_mem_cons.mpr ⟨hhop, ih h⟩
    · split at h <;> cases h

theorem hops_intercalate {chain : List String} (hcomma : ∀ hop ∈ chain, ',' ∉ hop.toList)
    (htrusted : ∀ hop ∈ chain, strip hop = "" ∨ isTrustedProxy (strip hop) trusted = true) :
    ∀ hop ∈ hops (",".intercalate chain), isTrustedProxy hop trusted = true := by
  intro hop hmem
  cases chain with
  | nil => cases hmem
  | cons first rest =>
    obtain ⟨hmem, hne⟩ := List.mem_filter.mp hmem
    obtain ⟨text, htext, rfl⟩ := List.mem_map.mp hmem
    have hsplit : (",".intercalate (first :: rest)).toList.splitOn ',' =
        (first :: rest).map String.toList := by
      rw [String.toList_intercalate]
      apply List.splitOn_intercalate
      · intro cs hcs
        obtain ⟨hop, hhop, rfl⟩ := List.mem_map.mp hcs
        exact hcomma hop hhop
      · exact List.cons_ne_nil _ _
    rw [hsplit] at htext
    obtain ⟨element, helement, rfl⟩ := List.mem_map.mp htext
    rw [String.ofList_toList] at hne ⊢
    exact (htrusted element helement).resolve_left (of_decide_eq_true hne)

theorem walkHops_client {spoofed client : String} {chain : List String}
    (hcomma : ',' ∉ client.toList) (hparses : (ipAddress (strip client)).isSome = true)
    (huntrusted : isTrustedProxy (strip client) trusted = false)
    (hchain : ∀ hop ∈ chain, ',' ∉ hop.toList)
    (htrusted : ∀ hop ∈ chain, strip hop = "" ∨ isTrustedProxy (strip hop) trusted = true) :
    walkHops peer trusted (hops (spoofed ++ "," ++ client ++ "," ++ ",".intercalate chain)).reverse =
      some (strip client) := by
  have hheader : spoofed ++ "," ++ client ++ "," ++ ",".intercalate chain =
      String.ofList (spoofed.toList ++ ',' :: (client.toList ++ ',' ::
        (",".intercalate chain).toList)) := by
    rw [← String.toList_inj]
    simp
  have hne : strip client ≠ "" := by
    intro hempty
    rw [hempty] at hparses
    cases hparses
  have hsingle : hops (String.ofList client.toList) = [strip client] := by
    rw [hops_single hcomma, String.ofList_toList]
    simp [hne]
  obtain ⟨parsed, hparsed⟩ := Option.isSome_iff_exists.mp hparses
  rw [hheader, hops_append, hops_append, hsingle]
  simp only [String.ofList_toList]
  rw [List.reverse_append, List.reverse_append, List.append_assoc, walkHops_trusted]
  · rw [List.reverse_singleton, List.singleton_append, walkHops, huntrusted, hparsed]
    rfl
  · intro hop hhop
    exact hops_intercalate hchain htrusted hop (List.mem_reverse.mp hhop)

/-- For an untrusted peer the result is the peer, or "unknown" if there is none. For a
trusted peer the client in front of the trusted hops is found whatever stands before it in
the header. In any case the result is the peer, "unknown" or a hop that is an address. -/
theorem client_ip_resolved (peer : String) (trusted : List String) :
    (isTrustedProxy peer trusted = false → ∀ forwardedFor,
      resolveClientIp peer forwardedFor trusted = if peer = "" then "unknown" else peer) ∧
    (isTrustedProxy peer trusted = true → ∀ client chain,
      ',' ∉ client.toList → (ipAddress (strip client)).isSome = true →
      isTrustedProxy (strip client) trusted = false → (∀ hop ∈ chain, ',' ∉ hop.toList) →
      (∀ hop ∈ chain, strip hop = "" ∨ isTrustedProxy (strip hop) trusted = true) →
      ∀ spoofed, resolveClientIp peer
        (some (spoofed ++ "," ++ client ++ "," ++ ",".intercalate chain)) trusted =
          strip client) ∧
    ∀ forwardedFor, resolveClientIp peer forwardedFor trusted = peer ∨
      resolveClientIp peer forwardedFor trusted = "unknown" ∨
      ∃ header, forwardedFor = some header ∧
        resolveClientIp peer forwardedFor trusted ∈ hops header ∧
        (ipAddress (resolveClientIp peer forwardedFor trusted)).isSome = true := by
  refine ⟨?_, ?_, ?_⟩
  · intro huntrusted forwardedFor
    unfold resolveClientIp
    rw [huntrusted]
    cases forwardedFor <;> simp
  · intro htrusted client chain hcomma hparses huntrusted hchain hhops spoofed
    have hpeer : peer ≠ "" := by
      rintro rfl
      have hnone := isTrustedProxy_parses htrusted
      cases hnone
    have hheader : spoofed ++ "," ++ client ++ "," ++ ",".intercalate chain ≠ "" := by
      intro hempty
      have hlist := congrArg String.toList hempty
      simp at hlist
    unfold resolveClientIp
    rw [if_neg hpeer]
    dsimp only
    rw [htrusted, walkHops_client hcomma hparses huntrusted hchain hhops]
    simp [hheader]
  · intro forwardedFor
    unfold resolveClientIp
    split
    · exact .inr (.inl rfl)
    · cases forwardedFor with
      | none => exact .inl rfl
      | some header =>
        dsimp only
        split
        · exact .inl rfl
        · split
          · rename_i client hwalk
            obtain hpeer | ⟨hmem, hparses⟩ := walkHops_some hwalk
            · exact .inl hpeer
            · exact .inr (.inr ⟨header, rfl, List.mem_reverse.mp hmem, hparses⟩)
          · rename_i hwalk
            cases hhead : (hops header).head? with
            | none => exact .inl rfl
            | some hop =>
              have hmem : hop ∈ hops header := List.mem_of_head? hhead
              have htrusted := walkHops_none hwalk hop (List.mem_reverse.mpr hmem)
              exact .inr (.inr ⟨header, rfl, hmem, isTrustedProxy_parses htrusted⟩)

end

/-- A forged address in front of the client's. -/
theorem client_ip_resolved_forged :
    resolveClientIp "10.0.0.5" (some ("9.9.9.9" ++ "," ++ "203.0.113.7" ++ "," ++
      ",".intercalate ["10.0.0.5"])) ["10.0.0.5"] = "203.0.113.7" :=
  (client_ip_resolved "10.0.0.5" ["10.0.0.5"]).2.1 (by decide) "203.0.113.7" ["10.0.0.5"]
    (by decide) (by decide) (by decide) (by decide) (by decide) "9.9.9.9"

/-- No peer is "unknown", and an address whose zone has a comma in it is two elements of
the header. -/
theorem missing_peer_and_zone :
    (isTrustedProxy "" [] = false ∧ resolveClientIp "" none [] = "unknown") ∧
    isTrustedProxy "10.0.0.5" ["10.0.0.5"] = true ∧
    (ipAddress "fe80::1%a,192.0.2.9").isSome = true ∧
    isTrustedProxy "fe80::1%a,192.0.2.9" ["10.0.0.5"] = false ∧
    resolveClientIp "10.0.0.5" (some ("9.9.9.9" ++ "," ++ "fe80::1%a,192.0.2.9" ++ "," ++
      ",".intercalate ["10.0.0.5"])) ["10.0.0.5"] = "192.0.2.9" := by
  decide

end AutoPR.Ratelimit
