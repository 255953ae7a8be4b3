import Esp32A2dpPlayer.Concurrency.StepMachine
import Esp32A2dpPlayer.Concurrency.WaitSet
import Esp32A2dpPlayer.Concurrency.IndependentSteps
import Esp32A2dpPlayer.Concurrency.Reaches
import Esp32A2dpPlayer.Bytes.ByteCodec
import Esp32A2dpPlayer.Bytes.WordFields
import Esp32A2dpPlayer.Bluetooth.EirEncoding
import Esp32A2dpPlayer.Bluetooth.EirFraming
import Esp32A2dpPlayer.Bluetooth.EirTermination
import Esp32A2dpPlayer.Bluetooth.AsyncCallSafety
import Esp32A2dpPlayer.Bluetooth.AsyncCallHandoff
import Esp32A2dpPlayer.Bluetooth.AsyncCallWait
import Esp32A2dpPlayer.Bluetooth.A2dpConnect
import Esp32A2dpPlayer.Bluetooth.ConnectReport
import Esp32A2dpPlayer.Concurrency.BroadcastChannel
import Esp32A2dpPlayer.Bluetooth.ClassOfDevice
import Esp32A2dpPlayer.Bluetooth.Properties
import Esp32A2dpPlayer.Bluetooth.ClassDecoding
import Esp32A2dpPlayer.Bluetooth.PropertyOrder
import Esp32A2dpPlayer.Bluetooth.Discovery
import Esp32A2dpPlayer.Bluetooth.NameSources
import Esp32A2dpPlayer.Bluetooth.ScanLifeCycle
import Esp32A2dpPlayer.Playback.DiscoveryLoop
import Esp32A2dpPlayer.StateMachine.MainLoop
import Esp32A2dpPlayer.StateMachine.OwnLock
import Esp32A2dpPlayer.StateMachine.Laps
import Esp32A2dpPlayer.Playback.Connect
import Esp32A2dpPlayer.StateMachine.NvsCount
import Esp32A2dpPlayer.StateMachine.NvsFlash
import Esp32A2dpPlayer.Audio.FileStream
import Esp32A2dpPlayer.Audio.OggStream
import Esp32A2dpPlayer.Audio.SampleFifo
import Esp32A2dpPlayer.Audio.Capacity
import Esp32A2dpPlayer.Audio.Wakeups
import Esp32A2dpPlayer.Audio.ReadAccounts
import Esp32A2dpPlayer.Audio.EndOfStream
import Esp32A2dpPlayer.Audio.Delivery
import Esp32A2dpPlayer.Audio.Abandoned
import Esp32A2dpPlayer.Bluetooth.A2dpPlay
import Esp32A2dpPlayer.Bluetooth.Serving
import Esp32A2dpPlayer.Bluetooth.PlayedBytes
import Esp32A2dpPlayer.Bluetooth.CallbackReturns
import Esp32A2dpPlayer.Bluetooth.PlayProtocol
import Esp32A2dpPlayer.Bluetooth.ReplacedStream
import Esp32A2dpPlayer.Updates.LastWins
import Esp32A2dpPlayer.Bluetooth.DevicePatch
import Esp32A2dpPlayer.Bluetooth.EirJoin
import Esp32A2dpPlayer.Concurrency.Simulation
import Esp32A2dpPlayer.StateMachine.Script
import Esp32A2dpPlayer.StateMachine.CallOrder
import Esp32A2dpPlayer.Bluetooth.GapCallback
import Esp32A2dpPlayer.System.Player
import Esp32A2dpPlayer.System.Knowledge
import Esp32A2dpPlayer.System.Asks
import Esp32A2dpPlayer.System.Evidence
import Esp32A2dpPlayer.System.Session
import Esp32A2dpPlayer.System.Failures
import Esp32A2dpPlayer.System.Aborts
import Esp32A2dpPlayer.System.Blocking
import Esp32A2dpPlayer.System.Waits
