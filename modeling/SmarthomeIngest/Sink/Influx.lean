import SmarthomeIngest.Message.Messages
import SmarthomeIngest.Sink.Point
import SmarthomeIngest.Wal.Types

/-!
# The Influx sink

The points of the messages, and the body of a write request.
-/

namespace SmarthomeIngest

variable {F : Type}

/-- The device timestamp, only when it is marked valid and positive. -/
def Point.deviceTimestamp (b : Point F) (timeValid : Bool) (timeMs : Int64) : Point F :=
  if timeValid && 0 < timeMs then b.timestamp timeMs else b

namespace Point

variable {p : Point F}

@[simp] lemma tags_deviceTimestamp (timeValid : Bool) (timeMs : Int64) :
    (p.deviceTimestamp timeValid timeMs).tags = p.tags := by
  unfold deviceTimestamp
  split_ifs <;> rfl

@[simp] lemma fields_deviceTimestamp (timeValid : Bool) (timeMs : Int64) :
    (p.deviceTimestamp timeValid timeMs).fields = p.fields := by
  unfold deviceTimestamp
  split_ifs <;> rfl

end Point

def sensorToPoint (msg : SensorMessage F) : Point F :=
  let b := Point.new "bme680"
    |>.tag "device_id" msg.deviceId
    |>.tag "room" msg.room
    |>.tag "device_class" msg.deviceClass
    |>.field "firmware_version" (.str msg.fwVersion)
    |>.field "temp_c" (.float msg.data.tempC)
    |>.field "rel_hum_perc" (.float msg.data.relHumPerc)
    |>.field "pressure_hpa" (.float msg.data.pressureHpa)
    |>.field "gas_ohm" (.float msg.data.gasOhm)
    |>.field "dew_point_c" (.float msg.data.dewPointC)
    |>.field "heat_index_c" (.float msg.data.heatIndexC)
    |>.field "time_valid" (.bool msg.timeValid)
  let b := if msg.warmedUp ≠ some false then
      b |>.field "iaq_score" (.float msg.data.iaqScore)
        |>.field "iaq_text" (.str msg.data.iaqText)
    else b
  let b := b.optField "boot_id" (msg.bootId.map fun n => .uint (UInt64.ofNat n.toNat))
  let b := b.optField "seq" (msg.seq.map fun n => .uint (UInt64.ofNat n.toNat))
  let b := b.optField "warmed_up" (msg.warmedUp.map .bool)
  let b := if msg.replayed then b.field "replayed" (.bool true) else b
  (b.deviceTimestamp msg.timeValid msg.timeMs).build

def statusToPoint (msg : StatusMessage) : Point F :=
  let b := Point.new "device_status"
    |>.tag "device_id" msg.deviceId
    |>.tag "device_class" msg.deviceClass
    |>.field "firmware_version" (.str msg.fwVersion)
    |>.field "ip_address" (.str msg.ip)
    |>.field "time_valid" (.bool msg.timeValid)
    |>.field "uptime" (.int msg.uptime)
    |>.field "free_mem" (.int msg.freeMem)
    |>.field "ssid" (.str msg.ssid)
    |>.field "rssi" (.int msg.rssi)
  let b := b.optField "queued" (msg.queued.map .int)
  let b := b.optField "dropped_total" (msg.droppedTotal.map .int)
  let b := b.optField "samples_failed_total" (msg.samplesFailedTotal.map .int)
  let b := b.optField "mqtt_connects_total" (msg.mqttConnectsTotal.map .int)
  let b := b.optField "sensor_read_failures_total" (msg.sensorReadFailuresTotal.map .int)
  let b := b.optField "reset_reason" (msg.resetReason.map .str)
  (b.deviceTimestamp msg.timeValid msg.timeMs).build

def HandledMessage.toPoint : HandledMessage F → Point F
  | .sensor msg => sensorToPoint msg
  | .status msg => statusToPoint msg

/-- `InfluxEncoder::encode` into an empty buffer. -/
def HandledMessage.encode [F64 F] (msg : HandledMessage F) : String :=
  msg.toPoint.writeLineProtocol ""

/-- `build_body`. -/
def buildBody (batch : List WalEvent) : String :=
  batch.foldl (fun body event => (if body = "" then body else body ++ "\n") ++ event.payload) ""

end SmarthomeIngest
