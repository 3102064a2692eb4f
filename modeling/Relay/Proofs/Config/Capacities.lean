import Relay.Proofs.Search.Answering
import Relay.Proofs.Text.Decimal

/-!
# Capacities that are configured

The capacity of the notification queue and the room for query results are read from text. Both are
at least 1 and fit a word, but a word may be larger than any channel: the cafe does not start, or
answers no search, exactly if the variable spells a word that is too large (`Config.channels_made`).
A number that is no word leaves the default, which fits.
-/

namespace Relay

open Text

namespace Config

variable {lookup : String → Option String} {name : String} {default n : Nat}

/-! ### What is read -/

/-- The variable spells a number of 64 bits. -/
def Sets (lookup : String → Option String) (name : String) (n : Nat) : Prop :=
  ∃ text, lookup name = some text ∧ Decimal.Spells (trim text.toList) n ∧ n < 2 ^ 64

theorem readWord?_eq_some_iff {text : String} :
    readWord? text = some n ↔ Decimal.Spells (trim text.toList) n ∧ n < 2 ^ 64 := by
  rw [readWord?, ← Decimal.readNatural?_eq_some_iff]
  cases Decimal.readNatural? (trim text.toList) with
  | none => simp
  | some m =>
    by_cases small : m < 2 ^ 64
    · simp only [if_pos small, Option.some.injEq]
      exact ⟨fun same => ⟨same, same ▸ small⟩, fun read => read.1⟩
    · simp only [if_neg small, Option.some.injEq]
      constructor
      · intro impossible
        cases impossible
      · rintro ⟨rfl, word⟩
        exact absurd word small

theorem sets_iff : Sets lookup name n ↔ (lookup name).bind readWord? = some n := by
  simp only [Sets, Option.bind_eq_some_iff, readWord?_eq_some_iff]

/-- A setting is what its variable spells, or the default. -/
theorem word_cases (lookup : String → Option String) (name : String) (default : Nat) :
    Sets lookup name (word lookup name default) ∨
      (∀ n, ¬Sets lookup name n) ∧ word lookup name default = default := by
  simp only [sets_iff, word]
  cases (lookup name).bind readWord? with
  | none => exact .inr ⟨fun n => (Option.some_ne_none n).symm, rfl⟩
  | some n => exact .inl rfl

/-- The variable spells a word that no channel is made for. -/
def Overfills (lookup : String → Option String) (name : String) : Prop :=
  ∃ n, Sets lookup name n ∧ Channel.maxCapacity < n

theorem overfills_iff (fits : default ≤ Channel.maxCapacity) :
    Overfills lookup name ↔ Channel.maxCapacity < word lookup name default := by
  rcases word_cases lookup name default with set | ⟨unset, same⟩
  · refine ⟨?_, fun large => ⟨_, set, large⟩⟩
    rintro ⟨n, set', large⟩
    rw [sets_iff] at set set'
    rwa [Option.some.inj (set.symm.trans set')]
  · rw [same]
    refine ⟨?_, fun large => absurd fits (Nat.not_le.2 large)⟩
    rintro ⟨n, set, -⟩
    exact absurd set (unset n)

theorem capacity_bounds (lookup : String → Option String) (name : String)
    (small : default < 2 ^ 64) :
    1 ≤ max 1 (word lookup name default) ∧ max 1 (word lookup name default) < 2 ^ 64 := by
  refine ⟨Nat.le_max_left _ _, Nat.max_lt.2 ⟨by decide, ?_⟩⟩
  rcases word_cases lookup name default with ⟨text, -, -, word⟩ | ⟨-, same⟩
  · exact word
  · rwa [same]

end Config

/-! ### Channels that are made -/

variable {makes : Nat → Bool} {buffer capacity timeout : Nat}

/-- The runtime makes the channels that it documents. -/
def Channel.Documents (makes : Nat → Bool) : Prop :=
  ∀ n, makes n = true ↔ 1 ≤ n ∧ n ≤ Channel.maxCapacity

theorem Channel.documents_documented : Channel.Documents Channel.documented := by
  intro n
  simp [Channel.documented]

/-- The channel of a capacity that is configured is made unless its variable is too large. -/
theorem Channel.Documents.makes_iff (documents : Channel.Documents makes)
    {lookup : String → Option String} {name : String} {default : Nat}
    (fits : default ≤ Channel.maxCapacity) :
    makes (max 1 (Config.word lookup name default)) = true ↔ ¬Config.Overfills lookup name := by
  have room : 1 ≤ Channel.maxCapacity := by decide
  rw [documents, Config.overfills_iff fits]
  omega

namespace Cafe

variable {c : Cafe} {config : Config} {r : Request}

theorem start?_of_made (made : makes config.notifyQueueCapacity = true) :
    start? makes config = some (ofConfig config) := by
  rw [start?, Notifier.spawn?, if_pos made]
  rfl

theorem start?_of_not_made (unmade : ¬makes config.notifyQueueCapacity = true) :
    start? makes config = none := by
  rw [start?, Notifier.spawn?, if_neg unmade]
  rfl

/-- The request is a search that can be read, so that its channel is asked for. -/
def Queries (c : Cafe) (r : Request) : Prop :=
  Route.ofPath? r.path = some .search ∧ r.method = .post ∧
    ∃ peer asked, r.peer? = some peer ∧ c.queryOf peer r = .ok asked

theorem answer?_of_queries (queries : c.Queries r) (makes : Nat → Bool) (now : Instant) :
    ∃ peer query, c.answer? makes now r = (c.search? makes peer query).map fun response =>
      (response.answer.withHeader "access-control-allow-origin" "*", c) := by
  obtain ⟨route, post, peer, ⟨id, query⟩, asking, asked⟩ := queries
  refine ⟨id.text, query, ?_⟩
  rw [answer?, route, post, asking]
  dsimp only
  rw [answerSearch?, asked, Option.map_map]
  rfl

theorem answer?_of_made (made : makes (max 1 c.config.queryBuffer) = true) (now : Instant)
    (r : Request) : c.answer? makes now r = some (c.answer now r) := by
  unfold answer?
  split
  · next peer route post asking =>
    rw [answer_of_search now route post asking, answerSearch_eq_queryOf, answerSearch?]
    cases c.queryOf peer r with
    | error a => rfl
    | ok asked =>
      dsimp only
      rw [search?_eq, if_pos made]
      rfl
  · rfl

theorem answer?_of_not_queries (not : ¬c.Queries r) (makes : Nat → Bool) (now : Instant) :
    c.answer? makes now r = some (c.answer now r) := by
  unfold answer?
  split
  · next peer route post asking =>
    rw [answer_of_search now route post asking, answerSearch_eq_queryOf, answerSearch?]
    cases asked : c.queryOf peer r with
    | error a => rfl
    | ok query => exact absurd ⟨route, post, peer, query, asking, asked⟩ not
  · rfl

end Cafe

/-- Whatever the variables say, both capacities are at least 1 and fit a word. A cafe starts
unless `NOTIFY_QUEUE_CAPACITY` spells a word larger than any channel; a request is answered unless
it is a search and `QUERY_BUFFER` spells one. -/
theorem Config.channels_made {makes : Nat → Bool} (documents : Channel.Documents makes)
    (lookup : String → Option String) :
    (1 ≤ (ofVariables lookup).notifyQueueCapacity ∧
      (ofVariables lookup).notifyQueueCapacity < 2 ^ 64) ∧
    (1 ≤ (ofVariables lookup).queryBuffer ∧ (ofVariables lookup).queryBuffer < 2 ^ 64) ∧
    (Overfills lookup "NOTIFY_QUEUE_CAPACITY" → Cafe.start? makes (ofVariables lookup) = none) ∧
    (¬Overfills lookup "NOTIFY_QUEUE_CAPACITY" →
      Cafe.start? makes (ofVariables lookup) = some (.ofConfig (ofVariables lookup))) ∧
    ∀ (c : Cafe), c.config = ofVariables lookup → ∀ now r,
      (Overfills lookup "QUERY_BUFFER" ∧ c.Queries r → c.answer? makes now r = none) ∧
      (¬(Overfills lookup "QUERY_BUFFER" ∧ c.Queries r) →
        c.answer? makes now r = some (c.answer now r)) := by
  have queue : makes (ofVariables lookup).notifyQueueCapacity = true ↔
      ¬Overfills lookup "NOTIFY_QUEUE_CAPACITY" := documents.makes_iff (by decide)
  have twice : max 1 (ofVariables lookup).queryBuffer = max 1 (word lookup "QUERY_BUFFER" 1) :=
    Nat.max_eq_right (Nat.le_max_left _ _)
  have buffer : makes (max 1 (ofVariables lookup).queryBuffer) = true ↔
      ¬Overfills lookup "QUERY_BUFFER" := by
    rw [twice]
    exact documents.makes_iff (by decide)
  refine ⟨capacity_bounds lookup _ (by decide), capacity_bounds lookup _ (by decide),
    fun large => ?_, fun small => Cafe.start?_of_made (queue.2 small), ?_⟩
  · exact Cafe.start?_of_not_made fun made => queue.1 made large
  · intro c same now r
    constructor
    · rintro ⟨large, queries⟩
      obtain ⟨peer, query, answered⟩ := Cafe.answer?_of_queries queries makes now
      have unmade : ¬makes (max 1 c.config.queryBuffer) = true := by
        rw [same, buffer]
        exact not_not_intro large
      rw [answered, Cafe.search?_eq, if_neg unmade]
      rfl
    · intro not
      by_cases queries : c.Queries r
      · have small : ¬Overfills lookup "QUERY_BUFFER" := fun large => not ⟨large, queries⟩
        exact Cafe.answer?_of_made (by rw [same, buffer]; exact small) now r
      · exact Cafe.answer?_of_not_queries queries makes now

/-! ### Variables that ask for too much -/

/-- The largest word for either capacity. -/
def Config.boundless (name : String) : Option String :=
  if name = "NOTIFY_QUEUE_CAPACITY" ∨ name = "QUERY_BUFFER" then some "18446744073709551615"
  else none

theorem Config.boundless_made : Channel.Documents Channel.documented ∧
    Cafe.start? Channel.documented (ofVariables boundless) = none := by
  have large : Overfills boundless "NOTIFY_QUEUE_CAPACITY" :=
    ⟨18446744073709551615, sets_iff.2 (by decide +kernel), by decide⟩
  exact ⟨Channel.documents_documented,
    (channels_made Channel.documents_documented boundless).2.2.1 large⟩

/-- Not every configuration brings a cafe that starts, nor every cafe an answer to each search. -/
theorem Config.boundless_breaks_off :
    (¬∀ makes, Channel.Documents makes → ∀ lookup,
      (Cafe.start? makes (ofVariables lookup)).isSome = true) ∧
    ¬∀ makes, Channel.Documents makes → ∀ lookup (c : Cafe), c.config = ofVariables lookup →
      ∀ now r, (c.answer? makes now r).isSome = true := by
  have start : (Cafe.start? Channel.documented (ofVariables boundless)).isSome = false := by
    decide +kernel
  have answer : ((Cafe.ofConfig (ofVariables boundless)).answer? Channel.documented .epoch
      (Cafe.searchRequest ⟨"q", 1⟩)).isSome = false := by
    decide +kernel
  constructor
  · intro all
    have started := all _ Channel.documents_documented boundless
    rw [start] at started
    cases started
  · intro all
    have answered := all _ Channel.documents_documented boundless
      (.ofConfig (ofVariables boundless)) rfl .epoch (Cafe.searchRequest ⟨"q", 1⟩)
    rw [answer] at answered
    cases answered

end Relay
