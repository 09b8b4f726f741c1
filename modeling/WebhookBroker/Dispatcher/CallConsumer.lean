import WebhookBroker.Controllers.Broadcast
import WebhookBroker.Dispatcher.Queue

/-!
# The request of a delivery (`dispatcher/worker.go`)

`callConsumer` sets the headers of the broker first and then one header for each entry of the
message's map. Both go through `Header.Set`, which does not tell `x-broker-consumer-token` from
`X-Broker-Consumer-Token`: what is set last stays. The map is what a producer named in
`X-Broker-Metadata-Headers`, and Go goes through it in any order.

So the broker's values arrive in every order if and only if no entry of the map has, up to case,
the name of one of them with another value (`carries_broker_headers_iff`).
-/

namespace WebhookBroker

open Lib List

/-- What a worker reads of `config.ConsumerConnectionConfig`. -/
structure ConsumerConnectionConfig where
  tokenRequestHeaderName : String
  userAgent : String

/-- `strconv.Itoa(int(n))` of a `uint`. -/
def itoa (n : Nat) : String := toString (BitVec.ofNat 64 n).toInt

/-- The headers that `callConsumer` sets before those of the message, in its order. -/
def brokerHeaders (config : ConsumerConnectionConfig) (requestID : String) (job : Job)
    (listener : Consumer) (message : Message) (channel : Channel) : List (String × String) :=
  [("Content-Type", message.contentType),
    ("X-Broker-Message-Priority", itoa job.priority),
    ("X-Broker-Channel-ID", channel.channelID),
    ("X-Broker-Consumer-ID", listener.consumerID),
    (config.tokenRequestHeaderName, listener.token),
    ("User-Agent", config.userAgent),
    ("X-Request-ID", requestID),
    ("X-Broker-Message-ID", message.messageID)]

structure ConsumerRequest where
  url : String
  body : String
  header : Header

/-- `callConsumer`: the request that it sends if it goes through the map as in `order`. There is
none if the job is not loaded or its callback URL is not absolute. That `net/http` sends no request
with a header name or value that it refuses is left out. -/
def callConsumer [NetUrl] (config : ConsumerConnectionConfig) (requestID : String) (job : Job)
    (order : HeadersMap) : Option ConsumerRequest := do
  let listener ← job.data.listener
  let message ← job.data.message
  let channel ← message.broadcastedTo
  if NetUrl.isAbs listener.callbackURL then
    let own := Header.empty.setAll (brokerHeaders config requestID job listener message channel)
    let names := (order.map Prod.fst).mergeSort fun a b => decide (a ≤ b)
    some {
      url := listener.callbackURL
      body := message.payload
      header := (own.setAll order).add headerMetadataHeaders (",".intercalate names) }
  else none

/-- A job with all that `callConsumer` reads of it: without one of these it sends nothing. -/
structure Job.Loaded [NetUrl] (job : Job) (listener : Consumer) (message : Message)
    (channel : Channel) : Prop where
  listener_eq : job.data.listener = some listener
  message_eq : job.data.message = some message
  channel_eq : message.broadcastedTo = some channel
  isAbs_callback : NetUrl.isAbs listener.callbackURL = true

/-- Every request for the job carries the values of the broker, whatever the order in which the
map of the message is gone through. -/
def CarriesBrokerHeaders [NetUrl] (config : ConsumerConnectionConfig) (requestID : String)
    (job : Job) : Prop :=
  ∀ listener message channel, job.Loaded listener message channel →
    ∀ order, order.Perm message.headers → ∀ r, callConsumer config requestID job order = some r →
      ∀ e ∈ brokerHeaders config requestID job listener message channel, r.header.get e.1 = e.2

/-- No header of the broker is given two values: neither the map of the message nor the configured
token header has the name of one of them with another value. -/
def NoHeaderOverridden [NetUrl] (config : ConsumerConnectionConfig) (requestID : String)
    (job : Job) : Prop :=
  ∀ listener message channel, job.Loaded listener message channel →
    ∀ e ∈ brokerHeaders config requestID job listener message channel,
      ∀ e' ∈ brokerHeaders config requestID job listener message channel ++ message.headers,
        canonicalHeaderKey e'.1 = canonicalHeaderKey e.1 → e'.2 = e.2

section
variable [NetUrl] {config : ConsumerConnectionConfig} {requestID : String} {job : Job}
  {listener : Consumer} {message : Message} {channel : Channel}

theorem exists_callConsumer_eq (config : ConsumerConnectionConfig) (requestID : String)
    (hload : job.Loaded listener message channel) (order : HeadersMap) :
    ∃ names r, callConsumer config requestID job order = some r ∧
      r.header = (Header.empty.setAll
        (brokerHeaders config requestID job listener message channel ++ order)).add
          headerMetadataHeaders names := by
  simp only [callConsumer, Option.bind_eq_bind, hload.listener_eq, hload.message_eq,
    hload.channel_eq, Option.bind_some, hload.isAbs_callback, if_true, Header.setAll_append]
  exact ⟨_, _, rfl, rfl⟩

theorem exists_get_callConsumer {order : HeadersMap} {r : ConsumerRequest} {e : String × String}
    (hload : job.Loaded listener message channel)
    (hr : callConsumer config requestID job order = some r)
    (he : e ∈ brokerHeaders config requestID job listener message channel ++ order) :
    ∃ e' ∈ brokerHeaders config requestID job listener message channel ++ order,
      canonicalHeaderKey e'.1 = canonicalHeaderKey e.1 ∧ r.header.get e.1 = e'.2 := by
  obtain ⟨names, r', hr', hheader⟩ := exists_callConsumer_eq config requestID hload order
  obtain rfl : r = r' := Option.some.inj (hr.symm.trans hr')
  obtain ⟨e', he', hkey, hval⟩ := Header.exists_setAll_eq Header.empty he
  refine ⟨e', he', hkey, ?_⟩
  rw [hheader, Header.get_add_of_ne_nil _ _ (by rw [hval]; simp), Header.get, hval]
  rfl

theorem exists_order_get_eq {e : String × String} (config : ConsumerConnectionConfig)
    (requestID : String) (hload : job.Loaded listener message channel) (he : e ∈ message.headers) :
    ∃ order r, order.Perm message.headers ∧ callConsumer config requestID job order = some r ∧
      r.header.get e.1 = e.2 := by
  have hperm := (perm_append_singleton e _).trans (perm_cons_erase he).symm
  obtain ⟨names, r, hr, hheader⟩ := exists_callConsumer_eq config requestID hload
    (message.headers.erase e ++ [e])
  refine ⟨_, r, hperm, hr, ?_⟩
  have hval := Header.setAll_concat_self Header.empty
    (brokerHeaders config requestID job listener message channel ++ message.headers.erase e) e
  rw [hheader, ← append_assoc, Header.get_add_of_ne_nil _ _ (by rw [hval]; simp), Header.get,
    hval]
  rfl

end

/-- The requests for a job carry the values of the broker in every order if and only if no header
of the broker is given two values. -/
theorem carries_broker_headers_iff [NetUrl] (config : ConsumerConnectionConfig)
    (requestID : String) (job : Job) :
    CarriesBrokerHeaders config requestID job ↔ NoHeaderOverridden config requestID job := by
  constructor
  · intro hcarries listener message channel hload e he e' he' hkey
    rcases mem_append.1 he' with hown | hmeta
    · obtain ⟨_, r, hr, -⟩ := exists_callConsumer_eq config requestID hload message.headers
      have hget := hcarries listener message channel hload message.headers (.refl _) r hr
      rw [← hget e he, ← hget e' hown]
      exact Header.get_congr r.header hkey
    · obtain ⟨order, r, hperm, hr, hval⟩ := exists_order_get_eq config requestID hload hmeta
      rw [← hcarries listener message channel hload order hperm r hr e he, ← hval]
      exact Header.get_congr r.header hkey
  · intro hnone listener message channel hload order hperm r hr e he
    obtain ⟨e', he', hkey, hval⟩ := exists_get_callConsumer hload hr (mem_append_left _ he)
    rw [hval]
    exact hnone listener message channel hload e he e'
      ((hperm.append_left _).mem_iff.1 he') hkey

namespace Sample

def connectionConfig : ConsumerConnectionConfig where
  tokenRequestHeaderName := "X-Broker-Consumer-Token"
  userAgent := "Webhook Message Broker"

def forgingHeader : Header :=
  (Header.empty.set headerMetadataHeaders "x-broker-consumer-token").set
    "x-broker-consumer-token" "forged"

/-- The job of a message with the headers of that broadcast. -/
def forgedJob : Job :=
  newJob { job .push 5 with
    message := some { message with headers := metadataHeaders forgingHeader } }

end Sample

open Sample

/-- A producer names the token header in lower case: the consumer gets the producer's value for its
own token. -/
theorem consumer_token_forged :
    (forgedJob.data.listener.map (·.token) = some "t" ∧
      (@callConsumer netUrl connectionConfig "r" forgedJob
        (metadataHeaders forgingHeader)).map (·.header.get "X-Broker-Consumer-Token") =
          some "forged") ∧
    ¬ @CarriesBrokerHeaders netUrl connectionConfig "r" forgedJob := by
  have hsent : forgedJob.data.listener.map (·.token) = some "t" ∧
      (@callConsumer netUrl connectionConfig "r" forgedJob
        (metadataHeaders forgingHeader)).map (·.header.get "X-Broker-Consumer-Token") =
          some "forged" := by decide +kernel
  refine ⟨hsent, fun hcarries => ?_⟩
  obtain ⟨r, hr, hforged⟩ := Option.map_eq_some_iff.1 hsent.2
  have hown := hcarries _ _ _ (@Job.Loaded.mk netUrl _ _ _ _ rfl rfl rfl rfl) _ (.refl _) r
    hr ("X-Broker-Consumer-Token", "t")
    (by simp [brokerHeaders, connectionConfig, consumer])
  exact absurd (hforged.symm.trans hown) (by decide)

end WebhookBroker
