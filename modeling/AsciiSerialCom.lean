import AsciiSerialCom.CircularBuffer.Access
import AsciiSerialCom.CircularBuffer.Pipeline
import AsciiSerialCom.SerialCom.CrcOption
import AsciiSerialCom.SerialCom.Grammar
import AsciiSerialCom.SerialCom.Progress
import AsciiSerialCom.SerialCom.StreamNumbers
import AsciiSerialCom.SerialCom.Wire
import AsciiSerialCom.Device.AdcHost
import AsciiSerialCom.Device.AdcProgress
import AsciiSerialCom.Device.AdcSwitch
import AsciiSerialCom.Device.AdcTiming
import AsciiSerialCom.Device.AscLoopback
import AsciiSerialCom.Device.HandlersAgree
import AsciiSerialCom.Device.OwnBytes
import AsciiSerialCom.Device.Schedule
import AsciiSerialCom.Device.TestDevice
import AsciiSerialCom.Device.WriteProtection
import AsciiSerialCom.MillisecTimer
import AsciiSerialCom.Native.Loopback
import AsciiSerialCom.Native.RegisterDevice
import AsciiSerialCom.Device.StmDacReset
import AsciiSerialCom.Device.StmHost
