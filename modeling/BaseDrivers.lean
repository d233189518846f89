import BaseDrivers.Execution
import BaseDrivers.I2cBus
import BaseDrivers.I2cTransfer
import BaseDrivers.CircularBuffer
import BaseDrivers.RingBuffer
import BaseDrivers.DemoCommon
import BaseDrivers.DemoFifo
import BaseDrivers.DemoInstance
import BaseDrivers.DemoSensor
import BaseDrivers.DemoRegistry
import BaseDrivers.RequestList
import BaseDrivers.InstanceFrame
import BaseDrivers.EnabledSensors
import BaseDrivers.FlushAnswers
import BaseDrivers.SensorMonitor
import BaseDrivers.RailTimer
import BaseDrivers.RailSettling
import BaseDrivers.RegistryOrder
import BaseDrivers.RegistryLedger
import BaseDrivers.RegistryAnswers
import BaseDrivers.PollingTimers
import BaseDrivers.DemoEvents
import BaseDrivers.FifoMask
import BaseDrivers.ProcLog
import BaseDrivers.ProcLogFull
import BaseDrivers.I2cAfterReturn
import BaseDrivers.TouchScreen
import BaseDrivers.ButtonsInput
import BaseDrivers.ButtonsAtomic
import BaseDrivers.ButtonsLines
import BaseDrivers.BlockWrites
import BaseDrivers.RamBlock
import BaseDrivers.FifoBounds
import BaseDrivers.Ladder
import BaseDrivers.InstanceSetup
import BaseDrivers.OdrLadder
import BaseDrivers.FifoSetup
import BaseDrivers.RateArbitration
import BaseDrivers.CallOutcome
import BaseDrivers.WatermarkDivision
import BaseDrivers.InstanceResources
import BaseDrivers.RegistryCount
import BaseDrivers.FifoEnd
import BaseDrivers.FifoInterrupt
import BaseDrivers.HwDetection
import BaseDrivers.IrqRegistration
import BaseDrivers.CachedRate
import BaseDrivers.RegistryNames
import BaseDrivers.ProcLogPrint
import BaseDrivers.ProcLogReads
import BaseDrivers.SuidLookup
import BaseDrivers.TouchPosition
import BaseDrivers.MouseKeys
import BaseDrivers.SecondTimer
import BaseDrivers.TouchMixing
import BaseDrivers.MultiTouch
import BaseDrivers.ButtonsNoblock
import BaseDrivers.I2cProgress
import BaseDrivers.BoundedArray
import BaseDrivers.Sort
import BaseDrivers.KernelList
import BaseDrivers.HeapList
import BaseDrivers.ListOperation
import BaseDrivers.ListCreation
import BaseDrivers.AxisMapping
import BaseDrivers.CodecWrite
import BaseDrivers.BitField
import BaseDrivers.Palette
import BaseDrivers.ShiftRegister
import BaseDrivers.BoardSnake
import BaseDrivers.DoubleList
import BaseDrivers.CursesSnake
import BaseDrivers.SnakeNodes
import BaseDrivers.SnakeTicks
import BaseDrivers.SnakeLinks
import BaseDrivers.SnakeOverlap
import BaseDrivers.RingInterleaved
import BaseDrivers.SafeIteration
import BaseDrivers.FifoLedger
import BaseDrivers.SensorBringUp
import BaseDrivers.At24cxx
import BaseDrivers.ButtonsNoshake
import BaseDrivers.ConsoleSnake
import BaseDrivers.ArraySnake
import BaseDrivers.HashList
