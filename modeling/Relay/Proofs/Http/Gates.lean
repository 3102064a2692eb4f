import Relay.Proofs.Http.Peers

/-!
# Gates

Relay routes are closed to those who do not say who they are, admin routes to those who do not
present the admin token. One who comes through neither gate leaves everything as it is, and learns
nothing but the configuration (`Cafe.answer_gated`).
-/

namespace Relay

namespace Request

/-- The value of the first header of a name, whatever its characters. -/
def value? (r : Request) (name : String) : Option String :=
  (r.headers.find? fun h => h.1.toLower == name).map Prod.snd

def Shows (value : String) : Prop := ∀ ch ∈ value.toList, isVisible ch = true

instance (value : String) : Decidable (Shows value) :=
  decidable_of_iff (value.toList.all isVisible = true) List.all_eq_true

/-- There is no peer header, or the first one names nobody. -/
def IsAnonymous (r : Request) : Prop :=
  ∀ value, r.value? "x-cafe-peer" = some value → ¬ Shows value ∨ Text.trim value.toList = []

/-- What is given as authorization. A value that does not show counts as empty, like a missing
one. -/
def authorization (r : Request) : String :=
  ((r.value? "authorization").filter fun value => decide (Shows value)).getD ""

/-- The token is given behind `Bearer`, or as it is. -/
def Presents (r : Request) (token : String) : Prop :=
  r.authorization = "Bearer " ++ token ∨
    r.authorization = token ∧ ¬ "Bearer ".toList <+: token.toList

variable {r : Request} {name token : String}

theorem header?_eq_filter (r : Request) (name : String) :
    r.header? name = (r.value? name).filter fun value => decide (Shows value) := by
  unfold header? value?
  cases r.headers.find? fun h => h.1.toLower == name with
  | none => rfl
  | some h =>
    obtain ⟨_, value⟩ := h
    have visible : value.toList.all isVisible = decide (Shows value) := by
      rw [Bool.eq_iff_iff, List.all_eq_true, decide_eq_true_iff]
      rfl
    simp only [Option.bind_eq_bind, Option.bind_some, Option.map_some, Option.filter_some, visible]

theorem peer?_eq_none_iff : r.peer? = none ↔ r.IsAnonymous := by
  unfold peer? IsAnonymous
  rw [header?_eq_filter]
  cases r.value? "x-cafe-peer" with
  | none => simp
  | some value =>
    by_cases shows : Shows value
    · simp [shows]
    · simp [shows]

theorem token_eq_iff : r.token = token ↔ r.Presents token := by
  have given : (r.header? "authorization").getD "" = r.authorization := by
    rw [header?_eq_filter, authorization]
  simp only [Request.token, given, Presents, ← String.toList_inj, String.toList_ofList,
    String.toList_append]
  generalize r.authorization.toList = given
  generalize token.toList = token
  simp only [List.isPrefixOf_iff_prefix]
  split
  · next starts =>
    obtain ⟨rest, rfl⟩ := starts
    rw [List.drop_left, List.append_cancel_left_eq]
    constructor
    · exact .inl
    · rintro (same | ⟨rfl, bare⟩)
      · exact same
      · exact absurd ⟨rest, rfl⟩ bare
  · next bare =>
    constructor
    · rintro rfl
      exact .inr ⟨rfl, bare⟩
    · rintro (same | ⟨same, -⟩)
      · exact absurd ⟨token, same.symm⟩ bare
      · exact same

theorem shows_authorization (r : Request) : Shows r.authorization := by
  unfold authorization
  cases given : (r.value? "authorization").filter fun value => decide (Shows value) with
  | none =>
    intro ch mem
    cases mem
  | some value => exact of_decide_eq_true (Option.filter_eq_some_iff.1 given).2

theorem Presents.shows (h : r.Presents token) : Shows token := by
  have given := r.shows_authorization
  rcases h with behind | ⟨alone, -⟩
  · rw [behind] at given
    intro ch mem
    refine given ch ?_
    rw [String.toList_append]
    exact List.mem_append_right _ mem
  · rw [← alone]
    exact given

end Request

theorem Config.adminToken_ofVariables (lookup : String → Option String) :
    (Config.ofVariables lookup).adminToken ≠ some "" := by
  intro empty
  have kept : ("" : String) ≠ "" :=
    of_decide_eq_true (Option.filter_eq_some_iff.1 (show
      (lookup "ADMIN_TOKEN").filter (· ≠ "") = some "" from empty)).2
  exact kept rfl

/-- Only admins may use these. -/
def Route.IsAdmin (route : Route) : Prop := route = .status ∨ route = .clients

namespace Cafe

variable {c c' : Cafe} {r : Request} {route : Route} {peer : String} {now : Instant}

/-- The request presents the admin token, and there is one. -/
def Admits (c : Cafe) (r : Request) : Prop :=
  ∃ token, c.config.adminToken = some token ∧ r.Presents token

theorem checkToken_eq_ok_iff : c.checkToken r = .ok () ↔ c.Admits r := by
  unfold checkToken Admits
  cases c.config.adminToken with
  | none => simp
  | some token =>
    simp only [Option.some.injEq, exists_eq_left', ← Request.token_eq_iff]
    split <;> simp [*]

theorem checkToken_congr (config : c'.config = c.config) (r : Request) :
    c'.checkToken r = c.checkToken r := by
  rw [checkToken, checkToken, config]

theorem registrationOf_congr (config : c'.config = c.config) (r : Request) :
    c'.registrationOf r = c.registrationOf r := by
  rw [registrationOf, registrationOf, bodyOf, bodyOf, config]

/-! ### The peer gate -/

theorem askingPeer_anonymous (anonymous : r.IsAnonymous) (needs : route.needsPeer = true) :
    askingPeer route r = .error (.unauthorized "Missing x-cafe-peer header") := by
  rw [askingPeer, if_pos needs, Request.peer?_eq_none_iff.2 anonymous]

theorem snd_trimBody {a : Answer} (c : Cafe)
    (plain : r.method = .head → ∀ id, a.body ≠ .notices id) : (trimBody r (a, c)).2 = c := by
  unfold trimBody
  dsimp only
  split
  · next head =>
    split
    · next id body => exact absurd body (plain head id)
    · rfl
  · rfl

theorem status_trimBody (r : Request) (a : Answer) (c : Cafe) :
    (trimBody r (a, c)).1.status = a.status := by
  unfold trimBody
  dsimp only
  split <;> rfl

theorem plain_ofError (e : RequestError) (id : SubscriptionId) :
    (Answer.ofError e).body ≠ .notices id := by
  unfold Answer.ofError
  split <;> exact fun h => by cases h

theorem status_answer_anonymous (anonymous : r.IsAnonymous)
    (known : Route.ofPath? r.path = some route) (needs : route.needsPeer = true)
    (taken : r.method ∈ route.methods) : (c.answer now r).1.status = 401 := by
  have options : r.method ≠ .options := by
    intro same
    rw [same] at taken
    cases route <;> simp [Route.methods] at taken
  rw [answer, if_neg options, known]
  dsimp only
  rw [answerKnown, askingPeer_anonymous anonymous needs, decide_eq_true taken]
  dsimp only [Answer.withHeader]
  rw [status_trimBody]
  rfl

/-- A route that anyone may ask changes nothing, unless an admin registers a client. -/
theorem snd_answerRoute_open (opened : route.needsPeer = false) (now : Instant) (peer : String)
    (r : Request) (c : Cafe) :
    (c.answerRoute now route peer r).2 = c ∨ route = .clients ∧ c.Admits r := by
  cases route with
  | health | info | status => exact .inl rfl
  | clients =>
    rw [← checkToken_eq_ok_iff, answerRoute, answerClients]
    cases c.registrationOf r with
    | error a => exact .inl rfl
    | ok registration =>
      dsimp only
      cases c.checkToken r with
      | error e => exact .inl rfl
      | ok ok => exact .inr ⟨rfl, rfl⟩
  | _ => cases opened

theorem plain_answerRoute_open (opened : route.needsPeer = false) (head : r.method = .head)
    (taken : r.method ∈ route.methods) (now : Instant) (peer : String) (c : Cafe)
    (id : SubscriptionId) : (c.answerRoute now route peer r).1.body ≠ .notices id := by
  rw [head] at taken
  cases route with
  | health | info => exact fun h => by cases h
  | status =>
    rw [answerRoute, answerStatus]
    dsimp only
    split
    · exact plain_ofError _ id
    · exact fun h => by cases h
  | clients => simp [Route.methods] at taken
  | _ => cases opened

theorem snd_answer_anonymous (anonymous : r.IsAnonymous) (now : Instant) (c : Cafe) :
    (c.answer now r).2 = c ∨
      Route.ofPath? r.path = some .clients ∧ r.method = .post ∧ c.Admits r := by
  obtain ⟨a, fixed⟩ | ⟨route, peer, known, taken, asking, goes⟩ := answer_cases now r
  · rw [fixed]
    exact .inl rfl
  have opened : route.needsPeer = false := by
    cases needs : route.needsPeer with
    | false => rfl
    | true =>
      rw [askingPeer_anonymous anonymous needs] at asking
      cases asking
  rw [goes]
  dsimp only
  rw [snd_trimBody _ fun head => plain_answerRoute_open opened head taken now peer c]
  rcases snd_answerRoute_open opened now peer r c with same | ⟨rfl, admits⟩
  · exact .inl same
  · exact .inr ⟨known, List.mem_singleton.1 taken, admits⟩

/-! ### The admin gate -/

theorem answerRoute_unadmitted (admin : route.IsAdmin) (taken : r.method ∈ route.methods)
    (refused : ¬ c.Admits r) : ∃ a, ∀ now peer (c' : Cafe), c'.config = c.config →
      finished r (c'.answerRoute now route peer r) = (a, c') := by
  cases checked : c.checkToken r with
  | ok ok => exact absurd (checkToken_eq_ok_iff.1 checked) refused
  | error e =>
    rcases admin with rfl | rfl
    · refine ⟨(trimBody r (.ofError e, .ofConfig {})).1.anyOrigin, ?_⟩
      intro now peer c' config
      have same : c'.answerStatus r = .ofError e := by
        rw [answerStatus, checkToken_congr config, checked]
        rfl
      rw [answerRoute, same, finished, trimBody_ofError]
    · have post : r.method ≠ .head := by
        rw [List.mem_singleton.1 taken]
        decide
      -- the body is read before the token is asked for
      cases registered : c.registrationOf r with
      | error a =>
        refine ⟨a.anyOrigin, ?_⟩
        intro now peer c' config
        have same : c'.registrationOf r = .error a := by
          rw [registrationOf_congr config, registered]
        rw [answerRoute, answerClients, same]
        simp only [finished, trimBody, if_neg post]
      | ok registration =>
        refine ⟨(Answer.ofError e).anyOrigin, ?_⟩
        intro now peer c' config
        have same : c'.registrationOf r = .ok registration := by
          rw [registrationOf_congr config, registered]
        rw [answerRoute, answerClients, same]
        dsimp only
        rw [checkToken_congr config, checked]
        simp only [bind, Except.bind, finished, trimBody, if_neg post]

theorem answer_unadmitted (known : Route.ofPath? r.path = some route) (admin : route.IsAdmin)
    (refused : ¬ c.Admits r) :
    ∃ a, ∀ now (c' : Cafe), c'.config = c.config → c'.answer now r = (a, c') := by
  by_cases options : r.method = .options
  · refine ⟨(preflight (some route)).anyOrigin, fun now c' _ => ?_⟩
    rw [answer, if_pos options, known]
    rfl
  have asking : askingPeer route r = .ok "" := by
    rcases admin with rfl | rfl <;> rfl
  by_cases taken : r.method ∈ route.methods
  · obtain ⟨a, same⟩ := answerRoute_unadmitted admin taken refused
    refine ⟨a, fun now c' config => ?_⟩
    rw [answer, if_neg options, known]
    dsimp only
    rw [answerKnown, asking, decide_eq_true taken]
    exact same now "" c' config
  · refine ⟨((Answer.ofStatus 405).withHeader "allow" route.allowed).anyOrigin,
      fun now c' _ => ?_⟩
    rw [answer, if_neg options, known]
    dsimp only
    rw [answerKnown, asking, decide_eq_false taken]
    rfl

/-! ### Both gates -/

/-- One who does not say who asks changes nothing unless an admin registers a client, and is turned
away from relay routes. On an admin route a request without the token changes nothing, and its
answer depends on the configuration alone. -/
theorem answer_gated (now : Instant) (r : Request) (c : Cafe) :
    (r.IsAnonymous →
      ((c.answer now r).2 = c ∨
        Route.ofPath? r.path = some .clients ∧ r.method = .post ∧ c.Admits r) ∧
      ∀ route, Route.ofPath? r.path = some route → route.needsPeer = true →
        r.method ∈ route.methods → (c.answer now r).1.status = 401) ∧
    (∀ route, Route.ofPath? r.path = some route → route.IsAdmin → ¬ c.Admits r →
      (c.answer now r).2 = c ∧
      ∀ now' (c' : Cafe), c'.config = c.config → (c'.answer now' r).1 = (c.answer now r).1) ∧
    (c.checkToken r = .ok () ↔ c.Admits r) ∧
    (∀ token, r.Presents token → Request.Shows token) ∧
    ∀ lookup, (Config.ofVariables lookup).adminToken ≠ some "" := by
  refine ⟨fun anonymous => ⟨snd_answer_anonymous anonymous now c, ?_⟩, ?_, checkToken_eq_ok_iff,
    fun _ => Request.Presents.shows, Config.adminToken_ofVariables⟩
  · intro route known needs taken
    exact status_answer_anonymous anonymous known needs taken
  · intro route known admin refused
    obtain ⟨a, same⟩ := answer_unadmitted known admin refused
    rw [same now c rfl]
    refine ⟨rfl, fun now' c' config => ?_⟩
    rw [same now' c' config]

/-- A token with other characters is refused, though it is given as it is configured. -/
theorem hidden_token_refused :
    ¬ ∀ (c : Cafe) (r : Request) (token value : String), c.config.adminToken = some token →
      r.value? "authorization" = some value →
      (c.checkToken r = .ok () ↔
        value = "Bearer " ++ token ∨ value = token ∧ ¬ "Bearer ".toList <+: token.toList) := by
  intro exactly
  let c : Cafe := ofConfig { adminToken := some "clé" }
  let r : Request :=
    { method := .get, target := "/admin/status", headers := [("authorization", "Bearer clé")] }
  have admitted : c.checkToken r = .ok () :=
    (exactly c r "clé" "Bearer clé" rfl (by decide +kernel)).2 (.inl rfl)
  obtain ⟨token, same, presents⟩ := checkToken_eq_ok_iff.1 admitted
  obtain rfl : "clé" = token := Option.some.inj same
  have hidden : ¬ Request.Shows "clé" := by decide
  exact hidden presents.shows

end Cafe

end Relay
