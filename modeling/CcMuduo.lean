import CcMuduo.TimerQueue.LoopCancel
import CcMuduo.TimerQueue.BatchCancel
import CcMuduo.TimerQueue.Timerfd
import CcMuduo.TimerQueue.Punctual
import CcMuduo.TimerQueue.Conservation
import CcMuduo.EventLoop.Threads
import CcMuduo.EventLoop.Wakeup
import CcMuduo.EventLoop.Quit
import CcMuduo.EventLoop.Latency
import CcMuduo.EventLoopThread
import CcMuduo.EventLoopThread.LateQuit
import CcMuduo.EventLoopThread.Joining
import CcMuduo.EpollPoller.Bookkeeping
import CcMuduo.EpollPoller.Disabling
import CcMuduo.EpollPoller.Room
import CcMuduo.Buffer.Fifo
import CcMuduo.TcpConnection.Delivery
import CcMuduo.TcpConnection.HalfClose
import CcMuduo.IoLoop.Destruction
import CcMuduo.TcpConnection.Interest
import CcMuduo.TcpConnection.OutputStream
import CcMuduo.TcpConnection.BorrowedBytes
import CcMuduo.TcpConnection.StateAccess
import CcMuduo.TcpServer.Spread
import CcMuduo.TcpServer.RawFunctors
import CcMuduo.TcpServer.Ownership
import CcMuduo.Connector.Ownership
import CcMuduo.Connector.Stop
import CcMuduo.Connector.Backoff
import CcMuduo.TcpClient.Assertions
import CcMuduo.TcpClient.Destruction
import CcMuduo.Buffer.Uses
import CcMuduo.TcpConnection.Notifications
import CcMuduo.TcpConnection.WriteFault
import CcMuduo.SocketsOps
import CcMuduo.TcpConnection.Deaf
import CcMuduo.TcpConnection.Graceful
import CcMuduo.EchoServer
import CcMuduo.TcpServer.Progress
import CcMuduo.TcpServer.Settling
import CcMuduo.TcpServer.Streams
import CcMuduo.EventLoopThread.StartUp
