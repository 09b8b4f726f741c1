import WebhookBroker.Lib.Replace
import WebhookBroker.Lib.UrlPath

/-!
# Links that are built with `formatURL` (`controllers/router.go`)

The answers of the API have relative links to other endpoints. `formatURL` puts the parameter values
into the path of the endpoint, one key after the other in the order in which the map of values is
ranged over, and as they are. So a value that contains the placeholder of another key is changed
again or not, depending on that order, and a value with a character that is special in a URL leads
elsewhere.
-/

namespace WebhookBroker

open Lib List

/-! ## Endpoints and routes -/

/-- A controller: its `GetPath` and the parameter names that its `FormatAsRelativeLink` passes
on. -/
structure Endpoint where
  path : List Char
  urlParamNames : List (List Char) := []
deriving DecidableEq

def channelIDPathParamKey := "channelId".toList
def consumerIDPathParamKey := "consumerId".toList
def jobIDPathParamKey := "jobId".toList
def messageIDParamKey := "messageId".toList
def producerIDPathParamKey := "producerId".toList

def channelPath := "/channel/:".toList ++ channelIDPathParamKey
def consumerPath := channelPath ++ "/consumer/:".toList ++ consumerIDPathParamKey
def jobPath := consumerPath ++ "/job/:".toList ++ jobIDPathParamKey
def messagePath := channelPath ++ "/message/:".toList ++ messageIDParamKey
def messagesPath := channelPath ++ "/messages".toList
def scheduledMessagePath := channelPath ++ "/scheduled-message/:".toList ++ messageIDParamKey

/-- The endpoints. Two controllers with one path differ in their methods. The routes for metrics and
profiling have fixed paths and no links, and are left out. -/
def endpoints : List Endpoint :=
  ([channelPath, channelPath ++ "/consumers".toList, channelPath ++ "/broadcast".toList,
    messagesPath, channelPath ++ "/messages-status".toList,
    channelPath ++ "/scheduled-messages".toList].map (⟨·, [channelIDPathParamKey]⟩)) ++
  ([messagePath, scheduledMessagePath].map (⟨·, [channelIDPathParamKey, messageIDParamKey]⟩)) ++
  ([consumerPath, consumerPath ++ "/dlq".toList, consumerPath ++ "/queued-jobs".toList,
    consumerPath ++ "/dispatch-pause".toList].map
      (⟨·, [channelIDPathParamKey, consumerIDPathParamKey]⟩)) ++
  ([jobPath, jobPath ++ "/requeue-dead-job".toList].map
    (⟨·, [channelIDPathParamKey, consumerIDPathParamKey, jobIDPathParamKey]⟩)) ++
  [⟨"/producer/:".toList ++ producerIDPathParamKey, [producerIDPathParamKey]⟩] ++
  (["/channels", "/producers", "/_status", "/job-status", "/dlq-status", "/dispatch-pause",
    "/dispatch-pauses", "/_internal/jobs/enqueue"].map fun path => { path := path.toList })

abbrev Param := List Char × List Char

inductive PathSegment where
  | literal (text : List Char)
  | param (key : List Char)
deriving DecidableEq

namespace PathSegment

def text : PathSegment → List Char
  | literal text => text
  | param key => ':' :: key

def key? : PathSegment → Option (List Char)
  | literal _ => none
  | param key => some key

def ofText : List Char → PathSegment
  | ':' :: key => param key
  | text => literal text

theorem text_ofText (s : List Char) : (ofText s).text = s := by
  unfold ofText
  split <;> rfl

end PathSegment

def Endpoint.segments (endpoint : Endpoint) : List PathSegment :=
  (endpoint.path.tail.splitOn '/').map .ofText

/-- What a segment of an endpoint requires of the segment of a path. -/
def PathSegment.accepts (params : List Param) (segment : PathSegment) (text : List Char) : Prop :=
  match segment with
  | literal expected => text = expected
  | param key => (key, text) ∈ params

/-- The path has a segment for each one of the endpoint. Those for a key are the parameters. -/
def Endpoint.Matches (endpoint : Endpoint) (texts : List (List Char)) (params : List Param) :
    Prop :=
  params.map (·.1) = endpoint.segments.filterMap PathSegment.key? ∧ (∀ p ∈ params, p.2 ∈ texts) ∧
    List.Forall₂ (PathSegment.accepts params) endpoint.segments texts

/-- The router of the package `httprouter`, of which only this is used: where it leads a decoded
path to an endpoint, the path matches it, and a named parameter is one whole segment of the path. -/
structure Router where
  route : List Char → Option (Endpoint × List Param)
  matches_of_route : ∀ {path endpoint params}, route path = some (endpoint, params) →
    ∃ rest, path = '/' :: rest ∧ endpoint ∈ endpoints ∧
      endpoint.Matches (rest.splitOn '/') params

/-! ## Building a link -/

/-- `findParam`: `ByName` of the parameters. -/
def findParam (params : List Param) (name : List Char) : List Char :=
  ((params.find? fun param => param.1 = name).map (·.2)).getD []

def paramValues (params : List Param) (urlParamNames : List (List Char)) : List Param :=
  urlParamNames.filterMap fun name =>
    if (findParam params name).length > 0 then some (name, findParam params name) else none

/-- The replacements of `formatURL`, in the order of the entries. -/
def replaceParams (entries : List Param) (result : List Char) : List Char :=
  entries.foldl (fun result entry => replaceAll (':' :: entry.1) entry.2 result) result

/-- `formatURL` gives this link if the `range` visits the entries of the map in some order. -/
def Endpoint.FormatsTo (endpoint : Endpoint) (params : List Param) (link : List Char) : Prop :=
  ∃ order, order.Perm (paramValues params endpoint.urlParamNames) ∧
    link = replaceParams order endpoint.path

/-- What the paths of the endpoints have in common. -/
structure Endpoint.WellFormed (endpoint : Endpoint) : Prop where
  path : endpoint.path.head? = some '/'
  names : endpoint.urlParamNames = endpoint.segments.filterMap PathSegment.key?
  nodup : (endpoint.segments.filterMap PathSegment.key?).Nodup
  slash : ∀ segment ∈ endpoint.segments, '/' ∉ segment.text
  literals : ∀ segment ∈ endpoint.segments, segment.key? = none →
    segment.text.all (fun c => isPathChar c && c != ':') = true ∧ isDots segment.text = false
  keys : ∀ key ∈ endpoint.segments.filterMap PathSegment.key?,
    ∀ key' ∈ endpoint.segments.filterMap PathSegment.key?, key' ≠ key →
      ¬ (':' :: key') <:+: (':' :: key)

theorem endpoints_wellFormed : ∀ endpoint ∈ endpoints, endpoint.WellFormed := by
  have h : ∀ endpoint ∈ endpoints, endpoint.path.head? = some '/' ∧
      endpoint.urlParamNames = endpoint.segments.filterMap PathSegment.key? ∧
      (endpoint.segments.filterMap PathSegment.key?).Nodup ∧
      (∀ segment ∈ endpoint.segments, '/' ∉ segment.text) ∧
      (∀ segment ∈ endpoint.segments, segment.key? = none →
        segment.text.all (fun c => isPathChar c && c != ':') = true ∧
          isDots segment.text = false) ∧
      ∀ key ∈ endpoint.segments.filterMap PathSegment.key?,
        ∀ key' ∈ endpoint.segments.filterMap PathSegment.key?, key' ≠ key →
          ¬ (':' :: key') <:+: (':' :: key) := by
    decide +kernel
  intro endpoint hmem
  obtain ⟨hpath, hnames, hnodup, hslash, hliterals, hkeys⟩ := h endpoint hmem
  exact ⟨hpath, hnames, hnodup, hslash, hliterals, hkeys⟩

theorem exists_of_forall₂ {α β : Type} {R : α → β → Prop} {l : List α} {m : List β} {b : β}
    (h : List.Forall₂ R l m) (hb : b ∈ m) : ∃ a ∈ l, R a b := by
  induction h with
  | nil => cases hb
  | cons hfirst _ ih =>
    rcases mem_cons.1 hb with rfl | hb
    · exact ⟨_, mem_cons_self, hfirst⟩
    · obtain ⟨a, ha, hab⟩ := ih hb
      exact ⟨a, mem_cons_of_mem _ ha, hab⟩

theorem map_eq_of_forall₂ {α β : Type} {R : α → β → Prop} {f : α → β} {l : List α} {m : List β}
    (h : List.Forall₂ R l m) (hf : ∀ a ∈ l, ∀ b, R a b → f a = b) : l.map f = m := by
  induction h with
  | nil => rfl
  | cons hfirst _ ih =>
    rw [map_cons, hf _ mem_cons_self _ hfirst,
      ih fun a ha => hf a (mem_cons_of_mem _ ha)]

/-- The parameters determine the path that matches an endpoint. -/
theorem Endpoint.Matches.inj {endpoint : Endpoint} {texts texts' : List (List Char)}
    {params : List Param} (hnodup : (params.map (·.1)).Nodup)
    (h : endpoint.Matches texts params) (h' : endpoint.Matches texts' params) : texts = texts' := by
  refine right_unique_forall₂' ?_ h.2.2 h'.2.2
  intro segment text text' htext htext'
  cases segment with
  | literal expected => exact htext.trans htext'.symm
  | param key => exact congrArg Prod.snd (inj_on_of_nodup_map hnodup htext htext' rfl)

/-! ## The replacements -/

section
variable {key value s : List Char} {entries : List Param}

theorem replaceAll_of_no_colon (h : ':' ∉ s) : replaceAll (':' :: key) value s = s :=
  replaceAll_of_not_occurs (cons_ne_nil _ _) fun hoccurs =>
    h (hoccurs.subset mem_cons_self)

theorem replaceParams_of_forall (h : ∀ e ∈ entries, replaceAll (':' :: e.1) e.2 s = s) :
    replaceParams entries s = s := by
  induction entries with
  | nil => rfl
  | cons e entries ih =>
    rw [replaceParams, foldl_cons, h e mem_cons_self]
    exact ih fun e he => h e (mem_cons_of_mem _ he)

theorem replaceParams_append (entries' : List Param) :
    replaceParams (entries ++ entries') s = replaceParams entries' (replaceParams entries s) :=
  foldl_append

theorem replaceParams_pathText (h : ∀ e ∈ entries, '/' ∉ e.1) (segments : List (List Char)) :
    replaceParams entries (pathText segments) =
      pathText (segments.map (replaceParams entries)) := by
  induction entries generalizing segments with
  | nil =>
    change pathText segments = pathText (segments.map fun s => s)
    rw [map_id']
  | cons e entries ih =>
    have hslash : '/' ∉ ':' :: e.1 := by
      simpa using h e mem_cons_self
    have hfirst : replaceAll (':' :: e.1) e.2 (pathText segments) =
        pathText (segments.map (replaceAll (':' :: e.1) e.2)) := by
      rw [pathText, replaceAll_cons (by simp), replaceAll_intercalate (cons_ne_nil _ _) hslash]
      rfl
    rw [replaceParams, foldl_cons, hfirst]
    have hrest := ih (fun e he => h e (mem_cons_of_mem _ he))
      (segments.map (replaceAll (':' :: e.1) e.2))
    rw [map_map] at hrest
    exact hrest

theorem mem_replaceParams {c : Char} (h : c ∈ replaceParams entries s) :
    c ∈ s ∨ ∃ e ∈ entries, c ∈ e.2 := by
  induction entries generalizing s with
  | nil => exact .inl h
  | cons e entries ih =>
    rcases ih h with h | ⟨e', he', h⟩
    · exact (mem_replaceAll (cons_ne_nil _ _) h).imp_right fun h => ⟨e, mem_cons_self, h⟩
    · exact .inr ⟨e', mem_cons_of_mem _ he', h⟩

/-- The placeholder of a key becomes its value, in which the later keys are replaced too. -/
theorem replaceParams_placeholder {pre post : List Param}
    (hpre : ∀ e ∈ pre, ¬ (':' :: e.1) <:+: (':' :: key)) :
    replaceParams (pre ++ (key, value) :: post) (':' :: key) = replaceParams post value := by
  have hkeep : replaceParams pre (':' :: key) = ':' :: key :=
    replaceParams_of_forall fun e he =>
      replaceAll_of_not_occurs (cons_ne_nil _ _) (hpre e he)
  have hvalue : replaceAll (':' :: key) value (':' :: key) = value :=
    replaceAll_pattern (cons_ne_nil _ _)
  rw [replaceParams_append, hkeep, replaceParams, foldl_cons, hvalue]
  rfl

theorem paramValues_eq {params : List Param} (hnodup : (params.map (·.1)).Nodup)
    (hne : ∀ p ∈ params, p.2 ≠ []) : paramValues params (params.map (·.1)) = params := by
  have hfind : ∀ p ∈ params, findParam params p.1 = p.2 := by
    intro p hp
    cases hq : params.find? fun q => q.1 = p.1 with
    | none => simpa using List.find?_eq_none.1 hq p hp
    | some q =>
      have hsame : q = p := inj_on_of_nodup_map hnodup (mem_of_find?_eq_some hq) hp
        (by simpa using List.find?_some hq)
      rw [findParam, hq, hsame]
      rfl
  have hentry : ∀ p ∈ params, (if (findParam params p.1).length > 0
      then some (p.1, findParam params p.1) else none) = some p := by
    intro p hp
    rw [hfind p hp, if_pos (length_pos_of_ne_nil (hne p hp))]
  rw [paramValues, filterMap_map]
  exact (filterMap_congr hentry).trans filterMap_some

end

/-! ## Links that lead back -/

/-- No value has a special character, none has the placeholder of another key, unless that key's
value is its placeholder, and none is a segment that the client removes. -/
structure LinkSafe (removesDots : Bool) (params : List Param) : Prop where
  chars : ∀ p ∈ params, ∀ c ∈ p.2, isPathChar c = true
  placeholders : ∀ p ∈ params, ∀ q ∈ params, q.1 ≠ p.1 → (':' :: q.1) <:+: p.2 → q.2 = ':' :: q.1
  dots : removesDots = true → ∀ p ∈ params, isDots p.2 = false

section
variable {endpoint : Endpoint} {params : List Param} {rest : List Char}
  (hwf : endpoint.WellFormed)
  (hmatch : endpoint.Matches (rest.splitOn '/') params)
  (hne : ∀ p ∈ params, p.2 ≠ [])

include hwf in
theorem Endpoint.WellFormed.path_eq :
    endpoint.path = pathText (endpoint.segments.map PathSegment.text) := by
  have htext : endpoint.segments.map PathSegment.text = endpoint.path.tail.splitOn '/' := by
    rw [segments, map_map]
    exact map_id'' PathSegment.text_ofText _
  rw [htext, pathText_splitOn]
  exact (cons_head?_tail hwf.path).symm

include hmatch in
theorem key_mem {p : Param} (hp : p ∈ params) :
    p.1 ∈ endpoint.segments.filterMap PathSegment.key? := by
  rw [← hmatch.1]
  exact mem_map_of_mem hp

include hmatch in
theorem slash_not_mem_value {p : Param} (hp : p ∈ params) : '/' ∉ p.2 :=
  not_mem_of_mem_splitOn (hmatch.2.1 p hp)

include hwf hmatch

theorem nodup_keys : (params.map (·.1)).Nodup := by
  rw [hmatch.1]
  exact hwf.nodup

theorem slash_not_mem_key {p : Param} (hp : p ∈ params) : '/' ∉ p.1 := by
  obtain ⟨segment, hsegment, hkey⟩ := mem_filterMap.1 (key_mem hmatch hp)
  intro hmem
  cases segment with
  | literal text => cases hkey
  | param key =>
    cases hkey
    exact hwf.slash _ hsegment (mem_cons_of_mem _ hmem)

include hne

theorem formatsTo_iff {link : List Char} : endpoint.FormatsTo params link ↔
    ∃ order, order.Perm params ∧
      link = pathText (endpoint.segments.map fun segment => replaceParams order segment.text) := by
  unfold Endpoint.FormatsTo
  rw [hwf.names, ← hmatch.1, paramValues_eq (nodup_keys hwf hmatch) hne]
  refine exists_congr fun order => and_congr_right fun hperm => ?_
  rw [hwf.path_eq, replaceParams_pathText fun e he =>
    slash_not_mem_key hwf hmatch (hperm.mem_iff.1 he), map_map]
  rfl

omit hne in
/-- A placeholder of the path becomes the value of its key, and then the keys that come after it in
the order are replaced in the value. -/
theorem replaceParams_key {pre post : List Param} {p : Param}
    (hperm : (pre ++ p :: post).Perm params) :
    replaceParams (pre ++ p :: post) (':' :: p.1) = replaceParams post p.2 := by
  have hmem : ∀ e ∈ pre ++ p :: post, e ∈ params := fun e he => hperm.mem_iff.1 he
  have hkeys : ((pre ++ p :: post).map (·.1)).Nodup :=
    (hperm.map _).nodup_iff.2 (nodup_keys hwf hmatch)
  refine replaceParams_placeholder fun e he => ?_
  refine hwf.keys _ (key_mem hmatch (hmem p (by simp))) _
    (key_mem hmatch (hmem e (mem_append_left _ he))) fun heq => ?_
  rw [map_append, map_cons, nodup_append] at hkeys
  exact hkeys.2.2 e.1 (mem_map_of_mem he) p.1 mem_cons_self heq

omit hne in
/-- If no value has the placeholder of another key, every order gives the path of the parameters. -/
theorem segments_eq (hplaceholders : ∀ p ∈ params, ∀ q ∈ params, q.1 ≠ p.1 →
      (':' :: q.1) <:+: p.2 → q.2 = ':' :: q.1)
    {order : List Param} (hperm : order.Perm params) :
    endpoint.segments.map (fun segment => replaceParams order segment.text) =
      rest.splitOn '/' := by
  have hsegment : ∀ segment ∈ endpoint.segments, ∀ text, segment.accepts params text →
      replaceParams order segment.text = text := by
    intro segment hsegment text haccepts
    cases segment with
    | literal expected =>
      have hplain := (hwf.literals _ hsegment rfl).1
      refine (replaceParams_of_forall fun e _ => replaceAll_of_no_colon fun hcolon => ?_).trans
        haccepts.symm
      simpa using all_eq_true.1 hplain ':' hcolon
    | param key =>
      obtain ⟨pre, post, rfl⟩ := append_of_mem (hperm.mem_iff.2 haccepts)
      refine (replaceParams_key hwf hmatch hperm).trans (replaceParams_of_forall fun e he => ?_)
      have hkeys := (hperm.map _).nodup_iff.2 (nodup_keys hwf hmatch)
      have hother : e.1 ≠ key := by
        rw [map_append, map_cons, nodup_append] at hkeys
        intro heq
        exact (nodup_cons.1 hkeys.2.1).1 (mem_map.2 ⟨e, he, heq⟩)
      by_cases hoccurs : (':' :: e.1) <:+: text
      · rw [hplaceholders _ haccepts e (hperm.mem_iff.1 (by simp [he])) hother hoccurs]
        exact replaceAll_self (cons_ne_nil _ _) text
      · exact replaceAll_of_not_occurs (cons_ne_nil _ _) hoccurs
  exact map_eq_of_forall₂ hmatch.2.2 hsegment

/-- If every order gives the same link, no value is changed by the placeholder of another key. -/
theorem placeholders_of_same
    (hsame : ∀ l l', endpoint.FormatsTo params l → endpoint.FormatsTo params l' → l = l') :
    ∀ p ∈ params, ∀ q ∈ params, q.1 ≠ p.1 → (':' :: q.1) <:+: p.2 → q.2 = ':' :: q.1 := by
  intro p hp q hq hqp hoccurs
  have hq' : q ∈ params.erase p := (mem_erase_of_ne fun heq => hqp (by rw [heq])).2 hq
  have hperm : ((params.erase p).erase q ++ [q, p]).Perm params := by
    refine perm_append_comm.trans ?_
    exact (List.Perm.swap p q _).trans
      (((perm_cons_erase hq').symm.cons p).trans (perm_cons_erase hp).symm)
  have hperm' := ((List.Perm.swap q p []).append_left _).trans hperm
  have hlinks := hsame _ _ ((formatsTo_iff hwf hmatch hne).2 ⟨_, hperm, rfl⟩)
    ((formatsTo_iff hwf hmatch hne).2 ⟨_, hperm', rfl⟩)
  have hslash : ∀ {order : List Param}, order.Perm params →
      ∀ text ∈ endpoint.segments.map (fun segment => replaceParams order segment.text),
        '/' ∉ text := by
    intro order hperm text htext hmem
    obtain ⟨segment, hsegment, rfl⟩ := mem_map.1 htext
    rcases mem_replaceParams hmem with hmem | ⟨e, he, hmem⟩
    · exact hwf.slash segment hsegment hmem
    · exact slash_not_mem_value hmatch (hperm.mem_iff.1 he) hmem
  obtain ⟨segment, hsegment, hkey⟩ := mem_filterMap.1 (key_mem hmatch hp)
  have hnil : ∀ {order : List Param},
      endpoint.segments.map (fun segment => replaceParams order segment.text) ≠ [] := by
    intro order hnil
    rw [map_eq_nil_iff.1 hnil] at hsegment
    cases hsegment
  have htexts := map_inj_left.1 (pathText_inj hnil hnil (hslash hperm) (hslash hperm') hlinks)
    segment hsegment
  cases segment with
  | literal text => cases hkey
  | param key =>
    cases hkey
    have hlast : replaceParams ((params.erase p).erase q ++ [q, p]) (':' :: p.1) = p.2 := by
      have hsplit : (params.erase p).erase q ++ [q, p] =
          ((params.erase p).erase q ++ [q]) ++ p :: [] := by simp
      rw [hsplit] at hperm ⊢
      exact replaceParams_key hwf hmatch hperm
    have hfirst := replaceParams_key hwf hmatch hperm'
    refine eq_of_replaceAll_eq (cons_ne_nil _ _) hoccurs ?_
    exact (hfirst.symm.trans htexts.symm).trans hlast

end

/-- For every endpoint and all parameters that are not empty with which the router leads to it: the
link of `formatURL` does not depend on the order of the map, and a request for it leads to the
endpoint with the same parameters, exactly when the values are safe. -/
theorem link_leads_back_iff (router : Router) (removesDots : Bool) (endpoint : Endpoint)
    (params : List Param) (path : List Char)
    (hroute : router.route path = some (endpoint, params)) (hne : ∀ p ∈ params, p.2 ≠ []) :
    ((∀ l l', endpoint.FormatsTo params l → endpoint.FormatsTo params l' → l = l') ∧
      ∀ l, endpoint.FormatsTo params l →
        (requestPath removesDots l).bind router.route = some (endpoint, params)) ↔
      LinkSafe removesDots params := by
  obtain ⟨rest, rfl, hmem, hmatch⟩ := router.matches_of_route hroute
  have hwf := endpoints_wellFormed endpoint hmem
  have hvalues := hmatch.2.1
  have haccepts := hmatch.2.2
  constructor
  · rintro ⟨hsame, hback⟩
    have hplaceholders := placeholders_of_same hwf hmatch hne hsame
    have hlink : endpoint.FormatsTo params ('/' :: rest) :=
      (formatsTo_iff hwf hmatch hne).2 ⟨params, .refl _, by
        rw [segments_eq hwf hmatch hplaceholders (.refl _), pathText_splitOn]⟩
    obtain ⟨arrived, harrived, hroute'⟩ := Option.bind_eq_some_iff.1 (hback _ hlink)
    obtain ⟨rest', rfl, -, hmatch'⟩ := router.matches_of_route hroute'
    have hrest : '/' :: rest' = '/' :: rest := by
      rw [← pathText_splitOn, ← pathText_splitOn,
        hmatch.inj (nodup_keys hwf hmatch) hmatch']
    rw [hrest, requestPath_eq_self_iff] at harrived
    refine ⟨fun p hp c hc => harrived.1 c ?_, hplaceholders,
      fun hremoves p hp => harrived.2 hremoves p.2 (hvalues p hp)⟩
    have hpath : c ∈ '/' :: rest := by
      rw [← pathText_splitOn, mem_pathText_iff]
      exact .inr ⟨p.2, hvalues p hp, hc⟩
    refine (mem_cons.1 hpath).resolve_left fun hslash => ?_
    exact slash_not_mem_value hmatch hp (hslash ▸ hc)
  · intro hsafe
    have hlink : ∀ l, endpoint.FormatsTo params l → l = '/' :: rest := by
      intro l hl
      obtain ⟨order, hperm, rfl⟩ := (formatsTo_iff hwf hmatch hne).1 hl
      rw [segments_eq hwf hmatch hsafe.placeholders hperm, pathText_splitOn]
    refine ⟨fun l l' hl hl' => (hlink l hl).trans (hlink l' hl').symm, fun l hl => ?_⟩
    have hsegment : ∀ text ∈ rest.splitOn '/', (∀ c ∈ text, isPathChar c = true) ∧
        (removesDots = true → isDots text = false) := by
      intro text htext
      obtain ⟨segment, hsegment, haccept⟩ := exists_of_forall₂ haccepts htext
      cases segment with
      | literal expected =>
        obtain rfl : text = expected := haccept
        obtain ⟨hplain, hdots⟩ := hwf.literals _ hsegment rfl
        refine ⟨fun c hc => ?_, fun _ => hdots⟩
        exact (Bool.and_eq_true_iff.1 (all_eq_true.1 hplain c hc)).1
      | param key => exact ⟨hsafe.chars _ haccept, fun hremoves => hsafe.dots hremoves _ haccept⟩
    have harrives : requestPath removesDots ('/' :: rest) = some ('/' :: rest) := by
      rw [requestPath_eq_self_iff]
      refine ⟨fun c hc => ?_, fun hremoves text htext => (hsegment text htext).2 hremoves⟩
      have hpath : c ∈ pathText (rest.splitOn '/') := by
        rw [pathText_splitOn]
        exact mem_cons_of_mem _ hc
      rcases mem_pathText_iff.1 hpath with rfl | ⟨text, htext, hc⟩
      · decide
      · exact (hsegment text htext).1 c hc
    rw [hlink l hl, harrives]
    exact hroute

namespace Sample

/-- The parameters for which a path matches. A parameter takes a whole segment, which may be empty
unless the path ends with it. -/
def matchSegments : List PathSegment → List (List Char) → Option (List Param)
  | [], [] => some []
  | .literal text :: rest, segment :: segments =>
    if segment = text then matchSegments rest segments else none
  | .param key :: rest, segment :: segments =>
    if segment = [] ∧ segments = [] then none
    else (matchSegments rest segments).map ((key, segment) :: ·)
  | _, _ => none

/-- No two paths of the endpoints match one path, so their order does not matter. -/
def route : List Char → Option (Endpoint × List Param)
  | '/' :: rest => endpoints.findSome? fun endpoint =>
    (matchSegments endpoint.segments (rest.splitOn '/')).map fun params => (endpoint, params)
  | _ => none

theorem matchSegments_spec {segments : List PathSegment} {texts : List (List Char)}
    {params : List Param} (h : matchSegments segments texts = some params) :
    params.map (·.1) = segments.filterMap PathSegment.key? ∧ (∀ p ∈ params, p.2 ∈ texts) ∧
      List.Forall₂ (PathSegment.accepts params) segments texts := by
  fun_induction matchSegments segments texts generalizing params with
  | case1 =>
    cases h
    refine ⟨rfl, ?_, .nil⟩
    intro p hp
    cases hp
  | case2 rest segment segments ih =>
    obtain ⟨hkeys, hvalues, haccepts⟩ := ih h
    exact ⟨hkeys, fun p hp => mem_cons_of_mem _ (hvalues p hp), .cons rfl haccepts⟩
  | case3 => cases h
  | case4 => cases h
  | case5 key rest segment segments hne ih =>
    obtain ⟨found, hfound, rfl⟩ := Option.map_eq_some_iff.1 h
    obtain ⟨hkeys, hvalues, haccepts⟩ := ih hfound
    refine ⟨?_, fun p hp => ?_, .cons mem_cons_self (haccepts.imp fun seg text hseg => ?_)⟩
    · rw [map_cons, hkeys]
      rfl
    · rcases mem_cons.1 hp with rfl | hp
      · exact mem_cons_self
      · exact mem_cons_of_mem _ (hvalues p hp)
    · cases seg with
      | literal expected => exact hseg
      | param key => exact mem_cons_of_mem _ hseg
  | case6 => cases h

/-- A router for the endpoints that matches the segments of a path one after the other. -/
def router : Router where
  route := route
  matches_of_route := by
    intro path endpoint params h
    unfold route at h
    split at h
    · rename_i rest
      obtain ⟨e, he, hmatch⟩ := exists_of_findSome?_eq_some h
      obtain ⟨found, hfound, heq⟩ := Option.map_eq_some_iff.1 hmatch
      cases heq
      exact ⟨rest, rfl, he, matchSegments_spec hfound⟩
    · cases h

def messageEndpoint : Endpoint := ⟨messagePath, [channelIDPathParamKey, messageIDParamKey]⟩

def messagesEndpoint : Endpoint := ⟨messagesPath, [channelIDPathParamKey]⟩

def messageParams (channelID messageID : String) : List Param :=
  [(channelIDPathParamKey, channelID.toList), (messageIDParamKey, messageID.toList)]

end Sample

open Sample

theorem link_leads_back_iff_message :
    router.route "/channel/c/message/m".toList =
      some (messageEndpoint, messageParams "c" "m") ∧
    ∀ l, messageEndpoint.FormatsTo (messageParams "c" "m") l →
      (requestPath true l).bind router.route =
        some (messageEndpoint, messageParams "c" "m") := by
  have hroute : router.route "/channel/c/message/m".toList =
      some (messageEndpoint, messageParams "c" "m") := by decide +kernel
  have hchars : ∀ p ∈ messageParams "c" "m", p.2.all isPathChar = true := by decide +kernel
  have hsafe : LinkSafe true (messageParams "c" "m") :=
    ⟨fun p hp => all_eq_true.1 (hchars p hp), by decide +kernel, by decide +kernel⟩
  exact ⟨hroute, ((link_leads_back_iff router true _ _ _ hroute (by decide +kernel)).2 hsafe).2⟩

/-- With a question mark in the id of a channel, the link to its messages leads to another channel;
with the placeholder of a message as the id, a link is one of two. -/
theorem link_leads_elsewhere :
    (requestPath false "/channel/a%3Fb/messages".toList).bind router.route =
      some (messagesEndpoint, [(channelIDPathParamKey, "a?b".toList)]) ∧
    messagesEndpoint.FormatsTo [(channelIDPathParamKey, "a?b".toList)]
      "/channel/a?b/messages".toList ∧
    (requestPath false "/channel/a?b/messages".toList).bind router.route =
      some (⟨channelPath, [channelIDPathParamKey]⟩, [(channelIDPathParamKey, "a".toList)]) ∧
    (requestPath false "/channel/:messageId/message/m".toList).bind router.route =
      some (messageEndpoint, messageParams ":messageId" "m") ∧
    messageEndpoint.FormatsTo (messageParams ":messageId" "m")
      "/channel/:messageId/message/m".toList ∧
    messageEndpoint.FormatsTo (messageParams ":messageId" "m")
      "/channel/m/message/m".toList := by
  refine ⟨by decide +kernel, ⟨_, .refl _, by decide +kernel⟩, by decide +kernel, by decide +kernel,
    ⟨_, .swap .., by decide +kernel⟩, ⟨_, .refl _, by decide +kernel⟩⟩

end WebhookBroker
